import NanoCell.Lib.Poll
import NanoCell.Expt.Driver

/-!
# Waiting for the reset of the chip

`hw_shut` writes `CMD_RESET` and polls `CHIP_CMD_REG` until the chip has cleared the bit, with a
counter that is meant to end the loop after 100 turns. The counter starts at 0 and runs down, so
that `i < 100` holds until the `int` wraps: a chip that never clears the bit, or one that was pulled
and reads as all ones, is polled `2 ^ 31 + 1` times. `rtl8101_nic_reset` of the other driver counts
from 100 down to 0. A signed counter wraps here, as the kernel is compiled.

## Main definitions

* `shutCounter`, `phyCounter`, `nicResetCounter`: the counters of the three polling loops
* `hwShut`, `phyShut`, `nicReset`: the accesses to the registers, in their order
* `StopsPolling`: `hw_shut` polls at most 100 times and goes on to `phy_shut`

## Main results

* `nicReset_stops`: `rtl8101_nic_reset` polls at most 100 times
* `stopsPolling_iff`: `hw_shut` does so exactly when one of the first 100 values shows the end of
  the reset
-/

namespace Expt

/-! ## The counters -/

/-- A signed value is below a small constant when it is smaller or negative. -/
theorem slt_ofNat_iff (i : BitVec 32) {n : ℕ} (hn : n < 2 ^ 31) :
    i.slt (BitVec.ofNat 32 n) = true ↔ i.toNat < n ∨ 2 ^ 31 ≤ i.toNat := by
  have hn' : (BitVec.ofNat 32 n).toInt = n := by
    rw [BitVec.toInt_eq_toNat_cond, BitVec.toNat_ofNat, Nat.mod_eq_of_lt (by omega),
      if_pos (by omega)]
  rw [BitVec.slt_iff_toInt_lt, hn', BitVec.toInt_eq_toNat_cond]
  split_ifs <;> omega

theorem zero_slt_iff (i : BitVec 32) :
    (0#32).slt i = true ↔ 0 < i.toNat ∧ i.toNat < 2 ^ 31 := by
  rw [BitVec.slt_iff_toInt_lt, BitVec.toInt_zero, BitVec.toInt_eq_toNat_cond]
  split_ifs <;> omega

/-- `for (i = 0; i < 100; i--)` of `hw_shut`. -/
def shutCounter : LoopCounter (BitVec 32) where
  more i := i.slt 100#32
  next i := i - 1#32
  -- the first value that is not below 100 is the largest `int`
  turns i := if i.slt 100#32 then (i - 0x7FFFFFFF#32).toNat else 0
  turns_of_more i h := by
    rw [if_pos h]
    rw [slt_ofNat_iff i (by decide)] at h
    simp only [slt_ofNat_iff (i - 1#32) (n := 100) (by decide)]
    split_ifs <;> bv_omega
  turns_of_not_more i h := if_neg (by simp [h])

/-- `for (i = 0; i < 10; i++)` of `phy_reg_write`. -/
def phyCounter : LoopCounter (BitVec 32) where
  more i := i.slt 10#32
  next i := i + 1#32
  turns i := if i.slt 10#32 then (10#32 - i).toNat else 0
  turns_of_more i h := by
    rw [if_pos h]
    rw [slt_ofNat_iff i (by decide)] at h
    simp only [slt_ofNat_iff (i + 1#32) (n := 10) (by decide)]
    split_ifs <;> bv_omega
  turns_of_not_more i h := if_neg (by simp [h])

/-- `for (i = 100; i > 0; i--)` of `rtl8101_nic_reset`. -/
def nicResetCounter : LoopCounter (BitVec 32) where
  more i := (0#32).slt i
  next i := i - 1#32
  turns i := if (0#32).slt i then i.toNat else 0
  turns_of_more i h := by
    rw [if_pos h]
    rw [zero_slt_iff] at h
    simp only [zero_slt_iff (i - 1#32)]
    split_ifs <;> bv_omega
  turns_of_not_more i h := if_neg (by simp [h])

/-! ## The registers -/

/-- `INTR_MASK_REG`. -/
def intrMaskReg : ℕ := 0x3C

/-- `CHIP_CMD_REG`. -/
def chipCmdReg : ℕ := 0x37

/-- `RX_CONFIG_REG`. -/
def rxConfigReg : ℕ := 0x44

/-- `PHY_ACCESS_REG`. -/
def phyAccessReg : ℕ := 0x60

/-- `CMD_RESET`. -/
def cmdReset : BitVec 8 := 1#8 <<< 4

/-- `RxDMAUnlimited`. -/
def rxDmaUnlimited : BitVec 32 := 6#32 <<< 8

/-- `MII_BMCR`. -/
def miiBmcr : BitVec 8 := 0x00#8

/-- `BMCR_PDOWN`. -/
def bmcrPdown : BitVec 16 := 0x0800#16

/-- An access to a register of the chip. -/
inductive RegAccess where
  | read (reg : ℕ)
  | write (reg : ℕ) (value : BitVec 32)
  deriving DecidableEq

/-- `hw_shut` up to its loop: `hw_disable_intr`, and the start of the reset. -/
def hwShutStart (dev : DevPriv) : List RegAccess :=
  [.read intrMaskReg,
    .write intrMaskReg ((dev.hwDisableIntr (intrMaskBits ||| intrErrMask)).intrMask.setWidth 32),
    .write chipCmdReg (cmdReset.setWidth 32)]

/-- `rtl8101_nic_reset` up to its loop. -/
def nicResetStart : List RegAccess :=
  [.write rxConfigReg rxDmaUnlimited, .write chipCmdReg (cmdReset.setWidth 32)]

/-- What the chip returns for the reads of `CHIP_CMD_REG` and of `PHY_ACCESS_REG`, one after the
other. -/
structure Responses where
  chipCmd : ℕ → BitVec 8
  phyAccess : ℕ → BitVec 32

namespace Responses

variable (c : Responses)

/-- The value of the read number `k` of `CHIP_CMD_REG` has `CMD_RESET` clear. -/
def resetDone (k : ℕ) : Bool := c.chipCmd k &&& cmdReset = 0#8

/-- `phy_reg_write`. -/
def phyRegWrite (regAddr : BitVec 8) (regValue : BitVec 16) : List RegAccess :=
  let written (k : ℕ) : Bool := c.phyAccess k &&& (1#32 <<< 31) = 0#32
  .write phyAccessReg (1#32 <<< 31 ||| regAddr.setWidth 32 <<< 16 ||| regValue.setWidth 32) ::
    List.replicate (phyCounter.poll written 0#32 0) (.read phyAccessReg)

/-- `phy_shut`. -/
def phyShut : List RegAccess := c.phyRegWrite miiBmcr bmcrPdown

/-- `hw_shut`, as it is compiled without `PKT_FLOW_CFG`. -/
def hwShut (dev : DevPriv) : List RegAccess :=
  hwShutStart dev ++ List.replicate (shutCounter.poll c.resetDone 0#32 0) (.read chipCmdReg) ++
    c.phyShut

/-- `rtl8101_nic_reset` of the other driver. -/
def nicReset : List RegAccess :=
  nicResetStart ++ List.replicate (nicResetCounter.poll c.resetDone 100#32 0) (.read chipCmdReg)

/-! ## The loops -/

/-- `rtl8101_nic_reset` polls at most 100 times, and stops at the first value with `CmdReset`
clear. -/
theorem nicReset_stops : ∃ n, Stops 100 c.resetDone n ∧
    c.nicReset = nicResetStart ++ List.replicate n (.read chipCmdReg) :=
  ⟨_, nicResetCounter.poll_stops c.resetDone 100#32, rfl⟩

/-- `hw_shut` polls at most 100 times, stops early exactly at the first value with `CMD_RESET`
clear, as `rtl8101_nic_reset` does, and goes on to `phy_shut`. -/
def StopsPolling (dev : DevPriv) : Prop :=
  ∃ n, Stops 100 c.resetDone n ∧
    c.nicReset = nicResetStart ++ List.replicate n (.read chipCmdReg) ∧
    c.hwShut dev = hwShutStart dev ++ List.replicate n (.read chipCmdReg) ++ c.phyShut

variable {c}

/-- The reads of `hw_shut` are as many as its counter allows, unless a value shows the end of the
reset. -/
theorem hwShut_stops (c : Responses) :
    Stops (2 ^ 31 + 1) c.resetDone (shutCounter.poll c.resetDone 0#32 0) :=
  shutCounter.poll_stops c.resetDone 0#32

theorem resetDone_iff {k : ℕ} : c.resetDone k = true ↔ c.chipCmd k &&& cmdReset = 0#8 := by
  simp [resetDone]

/-- `hw_shut` polls as it should exactly when its loop stops within 100 turns. -/
theorem stopsPolling_iff_stops (dev : DevPriv) :
    c.StopsPolling dev ↔ Stops 100 c.resetDone (shutCounter.poll c.resetDone 0#32 0) := by
  constructor
  · rintro ⟨n, hn, -, he⟩
    have hreads := List.append_cancel_left (List.append_cancel_right he)
    have hlen := congrArg List.length hreads
    rw [List.length_replicate, List.length_replicate] at hlen
    rwa [hlen]
  · intro hstops
    obtain ⟨n, hn, hreset⟩ := c.nicReset_stops
    rw [hn.unique hstops] at hreset
    exact ⟨_, hstops, hreset, rfl⟩

/-- **The reset-wait loop of `hw_shut`** ends after at most 100 reads exactly when one of the first
100 values has `CMD_RESET` clear. -/
theorem stopsPolling_iff (c : Responses) (dev : DevPriv) :
    c.StopsPolling dev ↔ ∃ k < 100, c.chipCmd k &&& cmdReset = 0#8 := by
  rw [stopsPolling_iff_stops, (hwShut_stops c).iff_of_lt (by decide)]
  simp only [resetDone_iff]

/-- A chip that was pulled: every register reads as all ones. -/
def pulled : Responses := ⟨fun _ => 0xFF#8, fun _ => 0xFFFFFFFF#32⟩

/-- A chip that was pulled is polled `2 ^ 31 + 1` times. -/
theorem pulled_polled : pulled.hwShut .loaded = hwShutStart .loaded ++
      List.replicate (2 ^ 31 + 1) (.read chipCmdReg) ++ pulled.phyShut ∧
    ¬ pulled.StopsPolling .loaded := by
  have hnever : ∀ k, pulled.resetDone k = false := by
    intro k
    simp [resetDone, pulled, cmdReset]
  have hreads := (hwShut_stops pulled).eq_turns hnever
  refine ⟨by rw [hwShut, hreads], ?_⟩
  intro h
  have hle := ((stopsPolling_iff_stops _).mp h).le
  rw [hreads] at hle
  exact absurd hle (by decide)

end Responses

end Expt
