import NanoCell.Lib.Mmio
import NanoCell.Rtl8101.Desc

/-!
# Access to the registers of the PHY

The MII registers of the PHY are behind the one register `PHYAR` of the chip: a command written to
it names a register and carries data, and the chip inverts the flag of the command when it is done.
Both drivers poll for that at most ten times, and go on when it has not happened. A command that is
still under way is lost to the next one.

## Main definitions

* `Phy`, `Phy.device`: the PHY behind `PHYAR`
* `Phy.phyRegWrite`, `Phy.phyPowerUp`, `Phy.phyPowerDown`: `phy.c`
* `Phy.exptPhyRegWrite`, `Phy.exptPhyRegRead`: the same accesses in `expt_drv_with_dma.c`

## Main results

* `command_triple`: a command that takes fewer polls than the driver makes is done on return
* `phyPowerUp_triple`, `phyPowerDown_triple`: what they leave in `MII_BMCR`
* `phyRegWrites_iff`: calls of `phy_reg_write` have written their registers on return exactly when
  the PHY takes fewer than ten polls
* `roundTrip_iff`: what is written to a register is read back exactly then
-/

namespace Rtl8101

open Mmio

/-- `PHYAR_Flag`, which is also `PHYAR_Write`. -/
def phyarFlag : BitVec 32 := 0x80000000#32

/-- `PHYAR_Reg_Mask`. -/
def phyarRegMask : BitVec 32 := 0x1f#32

/-- `PHYAR_Data_Mask`. -/
def phyarDataMask : BitVec 32 := 0xffff#32

/-- `MII_BMCR`. -/
def miiBmcr : BitVec 32 := 0x00#32

/-- `BMCR_ANENABLE`. -/
def bmcrAnenable : BitVec 32 := 0x1000#32

/-- `BMCR_PDOWN`. -/
def bmcrPdown : BitVec 32 := 0x0800#32

/-- The PHY: its MII registers, the contents of `PHYAR`, and the polls of `PHYAR` that still show
the command under way. -/
structure Phy where
  mii : BitVec 5 → BitVec 16
  phyar : BitVec 32
  left : Option ℕ

/-- The one register. -/
inductive PhyReg where
  | phyar

namespace Phy

/-- The flag of a command. -/
def flag (word : BitVec 32) : Bool := hasBits word phyarFlag

/-- The MII register that a command names. -/
def regOf (word : BitVec 32) : BitVec 5 := (word >>> 16).setWidth 5

/-- The data of a command. -/
def dataOf (word : BitVec 32) : BitVec 16 := word.setWidth 16

/-- The end of a command: the PHY stores the data, or returns what the register holds. -/
def finish (s : Phy) : Phy :=
  if flag s.phyar then
    { mii := Function.update s.mii (regOf s.phyar) (dataOf s.phyar)
      phyar := s.phyar &&& ~~~phyarFlag
      left := none }
  else
    { s with
      phyar := phyarFlag ||| (s.phyar &&& ~~~phyarDataMask ||| (s.mii (regOf s.phyar)).setWidth 32)
      left := none }

/-- The PHY as a device. A command takes `latency` polls, or fewer. -/
def device (latency : ℕ) : Device Phy Unit PhyReg fun _ => BitVec 32 where
  read s _ :=
    let t := match s.left with
      | none => s
      | some 0 => s.finish
      | some (n + 1) => { s with left := some n }
    (t.phyar, t)
  write s _ v := { s with phyar := v, left := some latency }
  step s _ := if s.left.isSome then some s.finish else none

/-- A function that accesses `PHYAR`. -/
abbrev PhyProg (α : Type) : Type := Prog PhyReg (fun _ => BitVec 32) α

/-! ## `phy.c` -/

/-- `phy_reg_write`. -/
def phyRegWrite (regAddr value : BitVec 32) : PhyProg Unit := do
  .put .phyar (phyarFlag ||| (regAddr &&& phyarRegMask) <<< 16 ||| value &&& phyarDataMask)
  .poll .phyar (fun v => !flag v) 10

/-- `phy_power_up`. -/
def phyPowerUp : PhyProg Unit := phyRegWrite miiBmcr bmcrAnenable

/-- `phy_power_down`. -/
def phyPowerDown : PhyProg Unit := phyRegWrite miiBmcr bmcrPdown

/-! ## `expt_drv_with_dma.c` -/

/-- `phy_reg_write` of the other driver, which does not mask its arguments. -/
def exptPhyRegWrite (regAddr : BitVec 8) (regValue : BitVec 16) : PhyProg Unit := do
  .put .phyar (1#32 <<< 31 ||| regAddr.setWidth 32 <<< 16 ||| regValue.setWidth 32 <<< 0)
  .poll .phyar (fun v => !flag v) 10

/-- `phy_reg_read`: the data is taken from one more read, whether or not the command is done. -/
def exptPhyRegRead (regAddr : BitVec 8) : PhyProg (BitVec 16) := do
  .put .phyar (0#32 <<< 31 ||| regAddr.setWidth 32 <<< 16)
  .poll .phyar flag 10
  let word ← .get .phyar
  pure ((word &&& 0xFFFF#32).setWidth 16)

/-! ## The fields of a command -/

section Fields

variable (x y : BitVec 32)

theorem regOf_or : regOf (x ||| y) = regOf x ||| regOf y := by
  unfold regOf
  rw [BitVec.ushiftRight_or_distrib, BitVec.setWidth_or]

theorem dataOf_or : dataOf (x ||| y) = dataOf x ||| dataOf y := BitVec.setWidth_or

theorem flag_or : flag (x ||| y) = (flag x || flag y) := hasBits_or x y phyarFlag

theorem regOf_shiftLeft : regOf (x <<< 16) = x.setWidth 5 := by
  apply BitVec.eq_of_getLsbD_eq
  intro i hi
  rw [regOf, BitVec.getLsbD_setWidth, BitVec.getLsbD_ushiftRight, BitVec.getLsbD_shiftLeft,
    BitVec.getLsbD_setWidth, Nat.add_sub_cancel_left]
  have hlow : ¬ 16 + i < 16 := by omega
  have hhigh : 16 + i < 32 := by omega
  simp only [hi, hlow, hhigh, decide_true, decide_false, Bool.not_false, Bool.true_and]

theorem dataOf_shiftLeft : dataOf (x <<< 16) = 0#16 := by
  apply BitVec.eq_of_getLsbD_eq
  intro i hi
  simp [dataOf, hi]

theorem regOf_setWidth (v : BitVec 16) : regOf (v.setWidth 32) = 0#5 := by
  apply BitVec.eq_of_getLsbD_eq
  intro i hi
  simp [regOf, hi]

theorem dataOf_setWidth (v : BitVec 16) : dataOf (v.setWidth 32) = v := by
  simp [dataOf]

theorem isFlag_phyarFlag : IsFlag phyarFlag := ⟨31, by decide, by decide⟩

theorem flag_phyarFlag : flag phyarFlag = true := hasBits_self isFlag_phyarFlag

theorem flag_eq : flag x = x.getLsbD 31 := by
  have hbit : phyarFlag = 1#32 <<< 31 := by decide
  rw [flag, hbit, hasBits_bit x (by decide)]

/-- The arguments of the first driver are masked, which keeps the bits that the PHY looks at. -/
theorem and_phyarDataMask : x &&& phyarDataMask = (x.setWidth 16).setWidth 32 := by
  apply BitVec.eq_of_toNat_eq
  have hmask : phyarDataMask.toNat = 2 ^ 16 - 1 := rfl
  rw [BitVec.toNat_and, hmask, Nat.and_two_pow_sub_one_eq_mod, BitVec.toNat_setWidth,
    BitVec.toNat_setWidth]
  omega

theorem setWidth_and_phyarRegMask : (x &&& phyarRegMask).setWidth 5 = x.setWidth 5 := by
  have hones : phyarRegMask.setWidth 5 = BitVec.allOnes 5 := by decide
  rw [BitVec.setWidth_and, hones, BitVec.and_allOnes]

end Fields

/-- The command that `phy_reg_write` writes. -/
def writeCommand (regAddr value : BitVec 32) : BitVec 32 :=
  phyarFlag ||| (regAddr &&& phyarRegMask) <<< 16 ||| value &&& phyarDataMask

theorem writeCommand_fields (a v : BitVec 32) : flag (writeCommand a v) = true ∧
    regOf (writeCommand a v) = a.setWidth 5 ∧ dataOf (writeCommand a v) = v.setWidth 16 := by
  unfold writeCommand
  rw [and_phyarDataMask, flag_or, flag_or, flag_phyarFlag, regOf_or, regOf_or, regOf_shiftLeft,
    regOf_setWidth, setWidth_and_phyarRegMask, dataOf_or, dataOf_or, dataOf_shiftLeft,
    dataOf_setWidth]
  have hreg : regOf phyarFlag = 0#5 := by decide
  have hdata : dataOf phyarFlag = 0#16 := by decide
  simp [hreg, hdata]

/-- The commands of the other driver. -/
def exptWriteCommand (regAddr : BitVec 8) (regValue : BitVec 16) : BitVec 32 :=
  1#32 <<< 31 ||| regAddr.setWidth 32 <<< 16 ||| regValue.setWidth 32 <<< 0

def exptReadCommand (regAddr : BitVec 8) : BitVec 32 := 0#32 <<< 31 ||| regAddr.setWidth 32 <<< 16

theorem exptWriteCommand_fields (a : BitVec 8) (v : BitVec 16) :
    flag (exptWriteCommand a v) = true ∧ regOf (exptWriteCommand a v) = a.setWidth 5 ∧
      dataOf (exptWriteCommand a v) = v := by
  have hflag : (1#32 <<< 31) = phyarFlag := by decide
  unfold exptWriteCommand
  rw [hflag, BitVec.shiftLeft_zero, flag_or, flag_or, flag_phyarFlag, regOf_or, regOf_or,
    regOf_shiftLeft, regOf_setWidth, dataOf_or, dataOf_or, dataOf_shiftLeft, dataOf_setWidth]
  have hreg : regOf phyarFlag = 0#5 := by decide
  have hdata : dataOf phyarFlag = 0#16 := by decide
  simp [hreg, hdata]

theorem exptReadCommand_fields (a : BitVec 8) :
    flag (exptReadCommand a) = false ∧ regOf (exptReadCommand a) = a.setWidth 5 := by
  have hzero : (0#32 <<< 31) = 0#32 := by decide
  unfold exptReadCommand
  rw [hzero, BitVec.zero_or, regOf_shiftLeft, flag_eq]
  simp

/-! ## Commands under way -/

variable {latency : ℕ} {m : BitVec 5 → BitVec 16} {word : BitVec 32}

/-- No command is under way, and the MII registers hold `m`. -/
def Idle (m : BitVec 5 → BitVec 16) (s : Phy) : Prop := s.mii = m ∧ s.left = none

/-- The PHY after the command `word` on the MII registers `m`. -/
def finished (m : BitVec 5 → BitVec 16) (word : BitVec 32) : Phy := finish ⟨m, word, none⟩

/-- The command `word` is under way, seen so by fewer than `n` polls, or done. -/
def UnderWay (m : BitVec 5 → BitVec 16) (word : BitVec 32) (n : ℕ) (s : Phy) : Prop :=
  (∃ k < n, s = ⟨m, word, some k⟩) ∨ s = finished m word

theorem finished_left : (finished m word).left = none := by
  unfold finished finish
  split <;> rfl

/-- A command that is done shows the other flag. -/
theorem flag_finished : flag (finished m word).phyar = !flag word := by
  unfold finished finish
  dsimp only
  cases h : flag word with
  | true =>
    rw [if_pos rfl]
    show hasBits (word &&& ~~~phyarFlag) phyarFlag = false
    rw [hasBits_and isFlag_phyarFlag, hasBits_not isFlag_phyarFlag, hasBits_self isFlag_phyarFlag,
      Bool.not_true, Bool.and_false]
  | false =>
    rw [if_neg (by simp)]
    show flag (phyarFlag ||| _) = true
    rw [flag_or, flag_phyarFlag, Bool.true_or]

theorem finished_of_write (h : flag word = true) :
    (finished m word).mii = Function.update m (regOf word) (dataOf word) := by
  unfold finished finish
  rw [if_pos h]

theorem finished_of_read (h : flag word = false) :
    (finished m word).mii = m ∧ dataOf (finished m word).phyar = m (regOf word) := by
  unfold finished finish
  rw [if_neg (by simp [h])]
  refine ⟨rfl, ?_⟩
  have hmask : dataOf (~~~phyarDataMask) = 0#16 := by decide
  have hflag : dataOf phyarFlag = 0#16 := by decide
  show dataOf (phyarFlag ||| (word &&& ~~~phyarDataMask ||| _)) = _
  rw [dataOf_or, dataOf_or, dataOf_setWidth, hflag, dataOf, BitVec.setWidth_and, ← dataOf,
    ← dataOf, hmask, BitVec.and_zero, BitVec.zero_or, BitVec.zero_or]

theorem Idle.stable (latency : ℕ) (m : BitVec 5 → BitVec 16) :
    Stable (device latency) (Idle m) := by
  rintro s e t ⟨-, hleft⟩ hstep
  simp [device, hleft] at hstep

theorem UnderWay.stable (latency : ℕ) (m : BitVec 5 → BitVec 16) (word : BitVec 32) (n : ℕ) :
    Stable (device latency) (UnderWay m word n) := by
  rintro s e t (⟨k, -, rfl⟩ | rfl) hstep
  · cases hstep
    exact .inr rfl
  · simp [device, finished_left] at hstep

theorem finished_stable (latency : ℕ) (m : BitVec 5 → BitVec 16) (word : BitVec 32) :
    Stable (device latency) fun s => s = finished m word := by
  rintro s e t rfl hstep
  simp [device, finished_left] at hstep

/-- What a poll sees of a command. -/
theorem read_busy (latency k : ℕ) :
    (device latency).read ⟨m, word, some (k + 1)⟩ .phyar = (word, ⟨m, word, some k⟩) := rfl

theorem read_last (latency : ℕ) : (device latency).read ⟨m, word, some 0⟩ .phyar =
    ((finished m word).phyar, finished m word) := rfl

theorem read_finished (latency : ℕ) : (device latency).read (finished m word) .phyar =
    ((finished m word).phyar, finished m word) := by
  simp [device, finished_left]

/-- **A command** that takes fewer polls than the driver makes is done on return, whether or not the
PHY was early. -/
theorem command_triple {n : ℕ} (hlat : latency < n) {done : BitVec 32 → Bool}
    (hdone : ∀ v, done v = (flag v ^^ flag word)) :
    Triple (device latency) (fun _ => True) (Idle m) (.write .phyar word (.poll .phyar done n))
      fun _ s => s = finished m word := by
  have hend : done (finished m word).phyar = true := by
    rw [hdone, flag_finished, Bool.not_xor_self]
  have hbusy : done word = false := by
    rw [hdone, Bool.xor_self]
  refine Triple.write (Idle.stable latency m) (fun _ _ => trivial) (R := UnderWay m word n) ?_ ?_
  · rintro s ⟨hmii, -⟩
    refine .inl ⟨latency, hlat, ?_⟩
    rw [← hmii]
    rfl
  refine Triple.poll (UnderWay.stable latency m word) (finished_stable latency m word)
    (fun _ _ _ => trivial) (fun _ _ => trivial) ?_ ?_ ?_ n
  · rintro s (⟨k, hk, -⟩ | rfl)
    · exact absurd hk (Nat.not_lt_zero k)
    · rfl
  · rintro n s (⟨k, hk, rfl⟩ | rfl) hv
    · cases k with
      | zero => rfl
      | succ k =>
        rw [read_busy, hbusy] at hv
        cases hv
    · rw [read_finished]
  · rintro n s (⟨k, hk, rfl⟩ | rfl) hv
    · cases k with
      | zero =>
        rw [read_last, hend] at hv
        cases hv
      | succ k => exact .inl ⟨k, by omega, rfl⟩
    · rw [read_finished, hend] at hv
      cases hv

/-- A command that takes as many polls as the driver makes is still under way on return, on a PHY
that is not early. -/
theorem exec_busy {n k : ℕ} (h : n ≤ k) {done : BitVec 32 → Bool}
    (hdone : ∀ v, done v = (flag v ^^ flag word)) :
    exec (device latency) (.poll .phyar done n) ⟨m, word, some k⟩ =
      ((), ⟨m, word, some (k - n)⟩) := by
  have hbusy : done word = false := by
    rw [hdone, Bool.xor_self]
  induction n generalizing k with
  | zero => rfl
  | succ n ih =>
    obtain ⟨k, rfl⟩ : ∃ j, k = j + 1 := ⟨k - 1, by omega⟩
    rw [Prog.poll, exec, read_busy]
    simp only [hbusy, Bool.false_eq_true, if_false]
    rw [ih (by omega), Nat.succ_sub_succ]

/-! ## The drivers -/

/-- The data of a word, as `phy_reg_read` cuts it out. -/
theorem setWidth_and_eq_dataOf (v : BitVec 32) : (v &&& 0xFFFF#32).setWidth 16 = dataOf v := by
  have hones : (0xFFFF#32).setWidth 16 = BitVec.allOnes 16 := by decide
  rw [BitVec.setWidth_and, hones, BitVec.and_allOnes, dataOf]

/-- A read does not change a register of the PHY, done or not. -/
theorem read_mii (h : flag word = false) (k : ℕ) :
    ((device latency).read ⟨m, word, some k⟩ .phyar).2.mii = m := by
  cases k with
  | zero => exact (finished_of_read h).1
  | succ k => rfl

theorem not_flag_eq (h : flag word = true) (v : BitVec 32) : (!flag v) = (flag v ^^ flag word) := by
  rw [h, Bool.xor_true]

theorem flag_eq_xor (h : flag word = false) (v : BitVec 32) : flag v = (flag v ^^ flag word) := by
  rw [h, Bool.xor_false]

/-- Calls of `phy_reg_write` one after another, such as the power cycles of `phy_power_up` and
`phy_power_down`. -/
def phyRegWrites : List (BitVec 32 × BitVec 32) → PhyProg Unit
  | [] => .ret ()
  | w :: ws => (phyRegWrite w.1 w.2).bind fun _ => phyRegWrites ws

/-- What the MII registers should hold after these calls. -/
def written (m : BitVec 5 → BitVec 16) (ws : List (BitVec 32 × BitVec 32)) : BitVec 5 → BitVec 16 :=
  ws.foldl (fun m w => Function.update m (w.1.setWidth 5) (w.2.setWidth 16)) m

theorem phyRegWrite_triple (hlat : latency < 10) (a v : BitVec 32) :
    Triple (device latency) (fun _ => True) (Idle m) (phyRegWrite a v)
      fun _ => Idle (Function.update m (a.setWidth 5) (v.setWidth 16)) := by
  obtain ⟨hflag, hreg, hdata⟩ := writeCommand_fields a v
  refine (command_triple hlat (not_flag_eq hflag)).conseq (fun _ hs => hs) ?_
  rintro _ t rfl
  refine ⟨?_, finished_left⟩
  rw [finished_of_write hflag, hreg, hdata]

/-- `phy_power_up` leaves `BMCR_ANENABLE` in `MII_BMCR` and nothing else, so the PHY is not powered
down. -/
theorem phyPowerUp_triple (hlat : latency < 10) (m : BitVec 5 → BitVec 16) :
    Triple (device latency) (fun _ => True) (Idle m) phyPowerUp
      fun _ => Idle (Function.update m 0#5 0x1000#16) :=
  phyRegWrite_triple hlat miiBmcr bmcrAnenable

/-- `phy_power_down` leaves `BMCR_PDOWN` in `MII_BMCR`, and autonegotiation disabled. -/
theorem phyPowerDown_triple (hlat : latency < 10) (m : BitVec 5 → BitVec 16) :
    Triple (device latency) (fun _ => True) (Idle m) phyPowerDown
      fun _ => Idle (Function.update m 0#5 0x0800#16) :=
  phyRegWrite_triple hlat miiBmcr bmcrPdown

/-- A close and the next open leave the PHY as the open alone does. -/
theorem phyPowerCycle_triple (hlat : latency < 10) (m : BitVec 5 → BitVec 16) :
    Triple (device latency) (fun _ => True) (Idle m) (phyPowerDown.bind fun _ => phyPowerUp)
      fun _ => Idle (Function.update m 0#5 0x1000#16) := by
  refine (phyPowerDown_triple hlat m).bind fun _ => ?_
  have hup := phyPowerUp_triple hlat (Function.update m 0#5 0x0800#16)
  rwa [Function.update_idem] at hup

theorem phyRegWrites_triple (hlat : latency < 10) (m : BitVec 5 → BitVec 16)
    (ws : List (BitVec 32 × BitVec 32)) :
    Triple (device latency) (fun _ => True) (Idle m) (phyRegWrites ws)
      fun _ => Idle (written m ws) := by
  induction ws generalizing m with
  | nil => exact Triple.ret (Q := fun _ => Idle m) (Idle.stable latency m) fun _ _ => trivial
  | cons w ws ih => exact (phyRegWrite_triple hlat w.1 w.2).bind fun _ => ih _

/-- **Writing the registers of the PHY**: in every interleaving, after any sequence of calls of
`phy_reg_write`, the MII registers hold what the calls wrote, the last write to each counting,
exactly when the PHY takes fewer than ten polls. -/
theorem phyRegWrites_iff (latency : ℕ) :
    (∀ ws m s, Idle m s → Safe (device latency) (fun _ => True) (fun _ t => t.mii = written m ws)
        (phyRegWrites ws) s) ↔ latency < 10 := by
  constructor
  · intro hsafe
    by_contra hge
    obtain ⟨hflag, -⟩ := writeCommand_fields 0#32 1#32
    have hend := (hsafe [(0#32, 1#32)] (fun _ => 0#16) ⟨fun _ => 0#16, 0#32, none⟩ ⟨rfl, rfl⟩).exec
    have hexec : exec (device latency) (phyRegWrite 0#32 1#32) ⟨fun _ => 0#16, 0#32, none⟩ =
        ((), ⟨fun _ => 0#16, writeCommand 0#32 1#32, some (latency - 10)⟩) :=
      exec_busy (not_lt.mp hge) (not_flag_eq hflag)
    rw [phyRegWrites, exec_bind, hexec] at hend
    have hzero : (0#16) = 1#16 := congrFun hend 0#5
    exact absurd hzero (by decide)
  · intro hlat ws m s hs
    exact (phyRegWrites_triple hlat m ws).conseq (fun _ hs => hs) (fun _ _ ht => ht.1) s hs

/-- **The round trip**: in every interleaving `phy_reg_read` returns what `phy_reg_write` of the
same driver wrote to the register before, and no other register has changed, exactly when the PHY
takes fewer than ten polls. -/
theorem roundTrip_iff (latency : ℕ) :
    (∀ m a v s, Idle m s → Safe (device latency) (fun _ => True)
        (fun value t => value = v ∧ t.mii = Function.update m (a.setWidth 5) v)
        ((exptPhyRegWrite a v).bind fun _ => exptPhyRegRead a) s) ↔ latency < 10 := by
  constructor
  · intro hsafe
    by_contra hge
    obtain ⟨hflag, -⟩ := exptWriteCommand_fields 0#8 1#16
    obtain ⟨hflag', -⟩ := exptReadCommand_fields 0#8
    have hend := (hsafe (fun _ => 0#16) 0#8 1#16 ⟨fun _ => 0#16, 0#32, none⟩ ⟨rfl, rfl⟩).exec.2
    -- the write is still under way when the command of the read replaces it
    have hwrite : exec (device latency) (exptPhyRegWrite 0#8 1#16) ⟨fun _ => 0#16, 0#32, none⟩ =
        ((), ⟨fun _ => 0#16, exptWriteCommand 0#8 1#16, some (latency - 10)⟩) :=
      exec_busy (not_lt.mp hge) (not_flag_eq hflag)
    have hpoll : exec (device latency) (.poll .phyar flag 10)
          ⟨fun _ => 0#16, exptReadCommand 0#8, some latency⟩ =
        ((), ⟨fun _ => 0#16, exptReadCommand 0#8, some (latency - 10)⟩) :=
      exec_busy (not_lt.mp hge) (flag_eq_xor hflag')
    have hread : (exec (device latency) (exptPhyRegRead 0#8)
          ⟨fun _ => 0#16, exptWriteCommand 0#8 1#16, some (latency - 10)⟩).2 =
        ((device latency).read ⟨fun _ => 0#16, exptReadCommand 0#8, some (latency - 10)⟩
          .phyar).2 := by
      show (exec (device latency) (Prog.bind (.poll .phyar flag 10) _)
        ⟨fun _ => 0#16, exptReadCommand 0#8, some latency⟩).2 = _
      rw [exec_bind, hpoll]
      rfl
    rw [exec_bind, hwrite, hread, read_mii hflag'] at hend
    have hzero : (0#16) = 1#16 := congrFun hend 0#5
    exact absurd hzero (by decide)
  · intro hlat m a v s hs
    obtain ⟨hflag, hreg, hdata⟩ := exptWriteCommand_fields a v
    obtain ⟨hflag', hreg'⟩ := exptReadCommand_fields a
    have hwrite : Triple (device latency) (fun _ => True) (Idle m) (exptPhyRegWrite a v)
        fun _ => Idle (Function.update m (a.setWidth 5) v) := by
      refine (command_triple hlat (not_flag_eq hflag)).conseq (fun _ hs => hs) ?_
      rintro _ t rfl
      refine ⟨?_, finished_left⟩
      rw [finished_of_write hflag, hreg, hdata]
    refine (hwrite.bind fun _ => ?_) s hs
    refine (command_triple hlat (flag_eq_xor hflag')).bind fun _ => ?_
    refine Triple.read (finished_stable latency _ _) (fun _ _ => trivial) ?_
    rintro t rfl
    obtain ⟨hmii, hvalue⟩ := finished_of_read (m := Function.update m (a.setWidth 5) v) hflag'
    rw [hreg', Function.update_self] at hvalue
    rw [read_finished, Prog.ret_bind, setWidth_and_eq_dataOf, hvalue]
    refine (Triple.ret (Q := fun value t => value = v ∧
      t = finished (Function.update m (a.setWidth 5) v) (exptReadCommand a)) ?_
      fun _ _ => trivial).conseq (fun _ ht => ht) ?_ _ ⟨rfl, rfl⟩
    · rintro t e u ⟨-, ht⟩ hstep
      exact ⟨rfl, finished_stable latency _ _ t e u ht hstep⟩
    · rintro value t ⟨hv, rfl⟩
      exact ⟨hv, hmii⟩

end Phy

end Rtl8101
