import NanoCell.Expt.Send
import NanoCell.Lib.Ledger

/-!
# Probing and removing the card

`expt_probe` acquires the card step by step, and undoes what it did when a step fails;
`expt_remove` undoes all of it. Every resource is entered in a ledger, and every use of one that is
not live is recorded. The two tests of `kmalloc` in `setup_buffers` undo the steps before them and
then go on: they return nothing.

## Main definitions

* `Resource`, `ProbeOutcome`: what is acquired, and the outcome of each step that may fail
* `Card`: the card with its ledger
* `Card.setupBuffers`, `Card.cleanupBuffers`, `Card.charRegisterDev`, `Card.exptProbe`,
  `Card.exptRemove`: the functions of the driver
* `Card.Sound`: all or nothing is held, and nothing was used that was not
* `Kmallocs`: the probes whose two calls of `kmalloc` succeed

## Main results

* `Card.exptProbe_ends`, `Card.exptRemove_undone`: the ends of a probe, and a removal
* `sound_iff`: the card is sound along a run exactly when no `kmalloc` failed in it
-/

namespace Expt

open Transition

/-! ## Resources -/

/-- What a probe acquires: the enabled device, its regions, the mapping of its registers, its
driver data, its MSI, the descriptors, the buffers and their mappings, the interrupt, and the
region, the `cdev`, the class and the device node of the character vertical. -/
inductive Resource where
  | pciDevice
  | regions
  | regBase
  | drvdata
  | msi
  | descTx
  | descRx
  | pktTx
  | mapTx
  | pktRx
  | mapRx
  | irq
  | chrdevRegion
  | cdev
  | cl
  | devNode
  deriving DecidableEq

/-- How a resource is used: written by the driver, mapped for the NIC, programmed into the chip,
followed as a pointer, and released. -/
inductive Access where
  | write
  | map
  | program
  | deref
  | release
  deriving DecidableEq

/-- The outcome of each step of a probe. A step that returns an `int` succeeds with 0, the two of
the character vertical with anything that is not negative; `class_create` and `device_create`
return an error `-(n + 1)` in their pointer. The bus addresses are those of the buffers. -/
structure ProbeOutcome where
  enableDevice : ℤ
  requestRegions : ℤ
  ioremap : Bool
  enableMsi : ℤ
  allocDescTx : Bool
  allocDescRx : Bool
  kmallocTx : Bool
  kmallocRx : Bool
  phyPktTx : BitVec 64
  phyPktRx : BitVec 64
  requestIrq : ℤ
  allocChrdevRegion : ℤ
  cdevAdd : ℤ
  classCreate : Option (Fin 4095)
  deviceCreate : Option (Fin 4095)

/-- `PTR_ERR` of an error pointer. -/
def ptrErr (e : Fin 4095) : ℤ := -(e + 1)

/-- `ENOMEM`. -/
def enomem : ℤ := 12

/-- `ENODEV`. -/
def enodev : ℤ := 19

/-- The card: the memory of the driver and the interrupt registers, whether the chip sends and
receives, whether `pkt_tx` and `pkt_rx` are pointers and MSI is enabled, whether a driver is bound
to it, its ledger, and the uses of what was not live. -/
structure Card where
  tx : TxDev
  running : Bool
  pktTx : Bool
  pktRx : Bool
  msiEnabled : Bool
  bound : Bool
  ledger : Ledger Resource
  faults : List (Access × Resource)

namespace Card

/-- The card before its first probe. -/
def plugged : Card := ⟨.loaded, false, false, false, false, false, .empty, []⟩

/-- A use of `r`. -/
def use (c : Card) (a : Access) (r : Resource) : Card :=
  if r ∈ c.ledger.live then c else { c with faults := c.faults ++ [(a, r)] }

/-- `r` is acquired. -/
def acquire (c : Card) (r : Resource) : Card := { c with ledger := c.ledger.acquire r }

/-- `r` is released. -/
def release (c : Card) (r : Resource) : Card :=
  { c.use .release r with ledger := c.ledger.release r }

/-- A ladder of releases. -/
def releaseAll (c : Card) (rs : List Resource) : Card := rs.foldl release c

/-! ## The functions of the driver -/

/-- `pci_enable_msi`; a card without it goes on. -/
def enableMsi (c : Card) (retval : ℤ) : Card :=
  if retval ≠ 0 then c else { c.acquire .msi with msiEnabled := true }

/-- `if (pci_dev_msi_enabled(dev)) pci_disable_msi(dev)`. -/
def disableMsi (c : Card) : Card :=
  if c.msiEnabled = true then { c.release .msi with msiEnabled := false } else c

/-- `kfree(dpv->pkt_tx)`, of nothing when the pointer is NULL. -/
def kfreeTx (c : Card) : Card := if c.pktTx = true then c.release .pktTx else c

/-- `kfree(dpv->pkt_rx)`. -/
def kfreeRx (c : Card) : Card := if c.pktRx = true then c.release .pktRx else c

/-- `pci_map_single` of `r`, and its mapping `m`. -/
def mapSingle (c : Card) (r m : Resource) : Card := (c.use .map r).acquire m

/-- The transmit buffer in `setup_buffers`. A failed `kmalloc` undoes the steps before it, and the
function goes on. -/
def allocTx (c : Card) (o : ProbeOutcome) : Card :=
  let c :=
    if o.kmallocTx = true then { c.acquire .pktTx with pktTx := true }
    else { c with pktTx := false }.releaseAll [.descRx, .descTx]
  c.mapSingle .pktTx .mapTx

/-- The receive buffer in `setup_buffers`, in the same way. -/
def allocRx (c : Card) (o : ProbeOutcome) : Card :=
  let c :=
    if o.kmallocRx = true then { c.acquire .pktRx with pktRx := true }
    else ({ c with pktRx := false }.release .mapTx).kfreeTx.releaseAll [.descRx, .descTx]
  c.mapSingle .pktRx .mapRx

/-- The end of `setup_buffers`: the descriptors are written with the addresses of the mappings, and
their own addresses are programmed into the chip. -/
def programChip (c : Card) (o : ProbeOutcome) : Card :=
  let c := (((c.use .write .descTx).use .program .mapTx).use .write .descRx).use .program .mapRx
  let c := { c with tx := c.tx.setupBuffers o.phyPktTx o.phyPktRx }
  ((c.use .deref .regBase).use .program .descTx).use .program .descRx

/-- `setup_buffers`. -/
def setupBuffers (c : Card) (o : ProbeOutcome) : Card × ℤ :=
  let c := c.use .deref .drvdata
  if o.allocDescTx = false then (c, -enomem)
  else
    let c := c.acquire .descTx
    if o.allocDescRx = false then (c.release .descTx, -enomem)
    else
      let c := c.acquire .descRx
      (((c.allocTx o).allocRx o).programChip o, 0)

/-- `cleanup_buffers`. -/
def cleanupBuffers (c : Card) : Card :=
  let c := c.use .deref .drvdata
  let c := (c.release .mapRx).kfreeRx
  let c := (c.release .mapTx).kfreeTx
  c.releaseAll [.descRx, .descTx]

/-- `hw_init`: the chip sends and receives, with its interrupts enabled. -/
def hwInit (c : Card) : Card :=
  let c := (c.use .deref .drvdata).use .deref .regBase
  { c with
    running := true
    tx := { c.tx with dev := c.tx.dev.hwEnableIntr (intrMaskBits ||| intrErrMask) } }

/-- `hw_shut`: the interrupts are disabled, and the chip is reset. -/
def hwShut (c : Card) : Card :=
  let c := (c.use .deref .drvdata).use .deref .regBase
  { c with
    running := false
    tx := { c.tx with dev := c.tx.dev.hwDisableIntr (intrMaskBits ||| intrErrMask) } }

/-- `char_register_dev`. -/
def charRegisterDev (c : Card) (o : ProbeOutcome) : Card × ℤ :=
  if o.allocChrdevRegion < 0 then (c, o.allocChrdevRegion)
  else
    let c := c.acquire .chrdevRegion
    if o.cdevAdd < 0 then (c.release .chrdevRegion, o.cdevAdd)
    else
      let c := c.acquire .cdev
      match o.classCreate with
      | some e => (c.releaseAll [.cdev, .chrdevRegion], ptrErr e)
      | none =>
        let c := c.acquire .cl
        match o.deviceCreate with
        | some e => (c.releaseAll [.cl, .cdev, .chrdevRegion], ptrErr e)
        | none => (c.acquire .devNode, 0)

/-- `char_deregister_dev`. -/
def charDeregisterDev (c : Card) : Card := c.releaseAll [.devNode, .cl, .cdev, .chrdevRegion]

/-- `expt_probe` from `char_register_dev` on. -/
def probeChar (c : Card) (o : ProbeOutcome) : Card × ℤ :=
  let (c, retval) := c.charRegisterDev o
  if retval ≠ 0 then
    let c := (c.hwShut.release .irq).cleanupBuffers
    (c.disableMsi.releaseAll [.drvdata, .regBase, .regions, .pciDevice], retval)
  else (c, 0)

/-- `expt_probe` from `request_irq` on. -/
def probeIrq (c : Card) (o : ProbeOutcome) : Card × ℤ :=
  if o.requestIrq ≠ 0 then
    (c.cleanupBuffers.disableMsi.releaseAll [.drvdata, .regBase, .regions, .pciDevice],
      o.requestIrq)
  else (c.acquire .irq).hwInit.probeChar o

/-- `expt_probe` from `setup_buffers` on. -/
def probeBuffers (c : Card) (o : ProbeOutcome) : Card × ℤ :=
  let (c, retval) := c.setupBuffers o
  if retval ≠ 0 then (c.disableMsi.releaseAll [.drvdata, .regBase, .regions, .pciDevice], retval)
  else c.probeIrq o

/-- `expt_probe`: the card after it, and what it returns. -/
def exptProbe (c : Card) (o : ProbeOutcome) : Card × ℤ :=
  if o.enableDevice ≠ 0 then (c, o.enableDevice)
  else
    let c := c.acquire .pciDevice
    if o.requestRegions ≠ 0 then (c.releaseAll [.pciDevice], o.requestRegions)
    else
      let c := c.acquire .regions
      if o.ioremap = false then (c.releaseAll [.regions, .pciDevice], -enodev)
      else
        let c := (c.acquire .regBase).acquire .drvdata
        (c.enableMsi o.enableMsi).probeBuffers o

/-- `expt_remove`. -/
def exptRemove (c : Card) : Card :=
  let c := (c.use .deref .drvdata).charDeregisterDev
  let c := (c.hwShut.release .irq).cleanupBuffers
  c.disableMsi.releaseAll [.drvdata, .regBase, .regions, .pciDevice]

end Card

/-- What the PCI core asks of the driver. -/
inductive CardEvent where
  | probe (o : ProbeOutcome)
  | remove

/-- One call: a card without a driver is probed, and is bound when the probe returns 0; a bound
card is removed. -/
def cardStep (c : Card) : CardEvent → Option Card
  | .probe o =>
    if c.bound = false then some { (c.exptProbe o).1 with bound := decide ((c.exptProbe o).2 = 0) }
    else none
  | .remove => if c.bound = true then some { c.exptRemove with bound := false } else none

/-! ## What the functions hold

The ledger `l₀` is that of the beginning of a call; what the call has acquired and not released is
the multiset that `Ledger.Holds` speaks of, the last acquisition first. -/

/-- The buffers, as `setup_buffers` leaves them. -/
def bufferParts : List Resource := [.mapRx, .pktRx, .mapTx, .pktTx, .descRx, .descTx]

/-- The card itself. -/
def pciParts : List Resource := [.drvdata, .regBase, .regions, .pciDevice]

/-- The character vertical. -/
def charParts : List Resource := [.devNode, .cl, .cdev, .chrdevRegion]

/-- MSI, on a card that has it enabled. -/
def msiParts (msiEnabled : Bool) : List Resource := if msiEnabled then [.msi] else []

/-- All that a probe acquires. -/
def probeParts (msiEnabled : Bool) : List Resource :=
  charParts ++ .irq :: bufferParts ++ msiParts msiEnabled ++ pciParts

/-- Since `l₀`, everything acquired was released exactly once but `held`, which is live. -/
def Holding (l₀ l : Ledger Resource) (held : List Resource) : Prop := l₀.Holds l held

theorem holding_self (l : Ledger Resource) : Holding l l [] := Ledger.holds_self l

theorem Holding.acquire {l₀ l : Ledger Resource} {held : List Resource} (h : Holding l₀ l held)
    (r : Resource) : Holding l₀ (l.acquire r) (r :: held) := Ledger.Holds.acquire h r

/-- A probe that comes to the two calls of `kmalloc` finds memory for both of them. -/
def Kmallocs (o : ProbeOutcome) : Prop :=
  o.enableDevice = 0 → o.requestRegions = 0 → o.ioremap = true → o.allocDescTx = true →
    o.allocDescRx = true → o.kmallocTx = true ∧ o.kmallocRx = true

instance (o : ProbeOutcome) : Decidable (Kmallocs o) :=
  inferInstanceAs (Decidable (_ → _ → _ → _ → _ → _ ∧ _))

namespace Card

variable {c : Card} {o : ProbeOutcome} {l₀ : Ledger Resource} {held : List Resource} {r : Resource}

theorem use_of_holds (h : Holding l₀ c.ledger held) (hr : r ∈ held) (a : Access) :
    c.use a r = c :=
  if_pos (Ledger.Holds.mem_live h (Multiset.mem_coe.mpr hr))

theorem release_of_holds (h : Holding l₀ c.ledger (r :: held)) :
    c.release r = { c with ledger := c.ledger.release r } ∧
      Holding l₀ (c.ledger.release r) held := by
  refine ⟨?_, Ledger.Holds.release h⟩
  rw [release, use_of_holds h List.mem_cons_self]

@[simp] theorem release_pktTx (c : Card) (r : Resource) : (c.release r).pktTx = c.pktTx := by
  unfold release use
  split_ifs <;> rfl

@[simp] theorem release_pktRx (c : Card) (r : Resource) : (c.release r).pktRx = c.pktRx := by
  unfold release use
  split_ifs <;> rfl

/-- A ladder takes the last acquisitions back, in their order. -/
theorem releaseAll_of_holds {rs : List Resource} (h : Holding l₀ c.ledger (rs ++ held)) :
    ∃ l, c.releaseAll rs = { c with ledger := l } ∧ Holding l₀ l held := by
  induction rs generalizing c with
  | nil => exact ⟨c.ledger, rfl, h⟩
  | cons r rs ih =>
    obtain ⟨heq, hrest⟩ := release_of_holds h
    obtain ⟨l, hl, hheld⟩ := ih (c := { c with ledger := c.ledger.release r }) hrest
    refine ⟨l, ?_, hheld⟩
    rw [releaseAll, List.foldl_cons, heq]
    exact hl

/-- A ladder that takes everything back. -/
theorem releaseAll_of_holds_all {rs : List Resource} (h : Holding l₀ c.ledger rs) :
    ∃ l, c.releaseAll rs = { c with ledger := l } ∧ Holding l₀ l [] := by
  have h' : Holding l₀ c.ledger (rs ++ []) := by rwa [List.append_nil]
  exact releaseAll_of_holds h'

theorem disableMsi_of_holds (h : Holding l₀ c.ledger (msiParts c.msiEnabled ++ held)) :
    ∃ l, c.disableMsi = { c with ledger := l, msiEnabled := false } ∧ Holding l₀ l held := by
  unfold disableMsi
  cases hmsi : c.msiEnabled with
  | true =>
    rw [hmsi] at h
    obtain ⟨heq, hheld⟩ := release_of_holds (r := .msi) h
    exact ⟨_, by rw [if_pos rfl, heq], hheld⟩
  | false =>
    rw [hmsi] at h
    refine ⟨c.ledger, ?_, h⟩
    rw [if_neg Bool.false_ne_true, ← hmsi]

/-- The end of every ladder. -/
theorem unwind_of_holds
    (h : Holding l₀ c.ledger (msiParts c.msiEnabled ++ (pciParts ++ held))) :
    ∃ l, c.disableMsi.releaseAll pciParts = { c with ledger := l, msiEnabled := false } ∧
      Holding l₀ l held := by
  obtain ⟨l, hl, hheld⟩ := disableMsi_of_holds h
  obtain ⟨l', hl', hheld'⟩ :=
    releaseAll_of_holds (c := { c with ledger := l, msiEnabled := false }) hheld
  exact ⟨l', by rw [hl, hl'], hheld'⟩

theorem enableMsi_of_holds (h : Holding l₀ c.ledger held) (hmsi : c.msiEnabled = false)
    (retval : ℤ) :
    ∃ l b, c.enableMsi retval = { c with ledger := l, msiEnabled := b } ∧
      Holding l₀ l (msiParts b ++ held) := by
  unfold enableMsi
  split_ifs
  · exact ⟨c.ledger, false, by rw [← hmsi], h⟩
  · exact ⟨_, true, rfl, h.acquire .msi⟩

/-- The buffer is there when it is mapped. -/
theorem allocTx_of_holds (h : Holding l₀ c.ledger held) (hk : o.kmallocTx = true) :
    ∃ l, c.allocTx o = { c with ledger := l, pktTx := true } ∧
      Holding l₀ l (.mapTx :: .pktTx :: held) := by
  have h₁ : Holding l₀ (c.ledger.acquire .pktTx) (.pktTx :: held) := h.acquire _
  have hmap := use_of_holds (c := { c.acquire .pktTx with pktTx := true }) h₁
    List.mem_cons_self .map
  refine ⟨_, ?_, h₁.acquire .mapTx⟩
  simp only [allocTx, mapSingle, hk, if_true, hmap]
  rfl

theorem allocRx_of_holds (h : Holding l₀ c.ledger held) (hk : o.kmallocRx = true) :
    ∃ l, c.allocRx o = { c with ledger := l, pktRx := true } ∧
      Holding l₀ l (.mapRx :: .pktRx :: held) := by
  have h₁ : Holding l₀ (c.ledger.acquire .pktRx) (.pktRx :: held) := h.acquire _
  have hmap := use_of_holds (c := { c.acquire .pktRx with pktRx := true }) h₁
    List.mem_cons_self .map
  refine ⟨_, ?_, h₁.acquire .mapRx⟩
  simp only [allocRx, mapSingle, hk, if_true, hmap]
  rfl

/-- What is written and programmed is held. -/
theorem programChip_of_holds (h : Holding l₀ c.ledger (bufferParts ++ held))
    (hreg : .regBase ∈ held) (o : ProbeOutcome) :
    c.programChip o = { c with tx := c.tx.setupBuffers o.phyPktTx o.phyPktRx } := by
  have hbuffer : ∀ {r}, r ∈ bufferParts → ∀ a, c.use a r = c :=
    fun hr a => use_of_holds h (List.mem_append_left _ hr) a
  have h' : Holding l₀ { c with tx := c.tx.setupBuffers o.phyPktTx o.phyPktRx }.ledger
    (bufferParts ++ held) := h
  simp only [programChip, hbuffer (r := .descTx) (by decide), hbuffer (r := .mapTx) (by decide),
    hbuffer (r := .descRx) (by decide), hbuffer (r := .mapRx) (by decide)]
  rw [use_of_holds h' (List.mem_append_right _ hreg),
    use_of_holds h' (List.mem_append_left _ (by decide)),
    use_of_holds h' (List.mem_append_left _ (by decide))]

/-- **`setup_buffers`** when the two calls of `kmalloc` succeed. -/
theorem setupBuffers_of_holds (h : Holding l₀ c.ledger held) (hdrv : .drvdata ∈ held)
    (hreg : .regBase ∈ held) (hk : o.allocDescTx = true → o.allocDescRx = true →
      o.kmallocTx = true ∧ o.kmallocRx = true) :
    (∃ l, c.setupBuffers o = ({ c with ledger := l }, -enomem) ∧ Holding l₀ l held) ∨
      ∃ l, c.setupBuffers o = ({ c with
          ledger := l
          pktTx := true
          pktRx := true
          tx := c.tx.setupBuffers o.phyPktTx o.phyPktRx }, 0) ∧
        Holding l₀ l (bufferParts ++ held) := by
  simp only [setupBuffers, use_of_holds h hdrv]
  by_cases hdescTx : o.allocDescTx = false
  · exact .inl ⟨c.ledger, by rw [if_pos hdescTx], h⟩
  have h₁ : Holding l₀ (c.ledger.acquire .descTx) (.descTx :: held) := h.acquire _
  rw [if_neg hdescTx]
  by_cases hdescRx : o.allocDescRx = false
  · obtain ⟨heq, hheld⟩ := release_of_holds (c := c.acquire .descTx) h₁
    exact .inl ⟨_, by rw [if_pos hdescRx, heq]; rfl, hheld⟩
  rw [if_neg hdescRx]
  have h₂ : Holding l₀ ((c.acquire .descTx).acquire .descRx).ledger
    (.descRx :: .descTx :: held) := h₁.acquire _
  obtain ⟨htx, hrx⟩ :=
    hk (Bool.eq_true_of_not_eq_false hdescTx) (Bool.eq_true_of_not_eq_false hdescRx)
  obtain ⟨l, hl, hheld⟩ := allocTx_of_holds h₂ htx
  obtain ⟨l', hl', hheld'⟩ := allocRx_of_holds
    (c := { (c.acquire .descTx).acquire .descRx with ledger := l, pktTx := true }) hheld hrx
  have hall : Holding l₀ l' (bufferParts ++ held) := hheld'
  refine .inr ⟨l', ?_, hall⟩
  rw [hl, hl', programChip_of_holds hall hreg]
  rfl

theorem cleanupBuffers_of_holds (h : Holding l₀ c.ledger (bufferParts ++ held))
    (hdrv : .drvdata ∈ held) (hpktTx : c.pktTx = true) (hpktRx : c.pktRx = true) :
    ∃ l, c.cleanupBuffers = { c with ledger := l } ∧ Holding l₀ l held := by
  have hladder : c.cleanupBuffers = c.releaseAll bufferParts := by
    simp only [cleanupBuffers, use_of_holds h (List.mem_append_right _ hdrv), kfreeRx, kfreeTx,
      releaseAll, bufferParts, List.foldl_cons, List.foldl_nil, release_pktTx, release_pktRx,
      hpktTx, hpktRx, if_true]
  rw [hladder]
  exact releaseAll_of_holds h

theorem hwInit_of_holds (h : Holding l₀ c.ledger held) (hdrv : .drvdata ∈ held)
    (hreg : .regBase ∈ held) : c.hwInit = { c with
      running := true
      tx := { c.tx with dev := c.tx.dev.hwEnableIntr (intrMaskBits ||| intrErrMask) } } := by
  rw [hwInit, use_of_holds h hdrv, use_of_holds h hreg]

theorem hwShut_of_holds (h : Holding l₀ c.ledger held) (hdrv : .drvdata ∈ held)
    (hreg : .regBase ∈ held) : c.hwShut = { c with
      running := false
      tx := { c.tx with dev := c.tx.dev.hwDisableIntr (intrMaskBits ||| intrErrMask) } } := by
  rw [hwShut, use_of_holds h hdrv, use_of_holds h hreg]

/-- **`char_register_dev`** takes all of its steps or none. -/
theorem charRegisterDev_of_holds (h : Holding l₀ c.ledger held) (o : ProbeOutcome) :
    (∃ l e, e ≠ 0 ∧ c.charRegisterDev o = ({ c with ledger := l }, e) ∧ Holding l₀ l held) ∨
      ∃ l, c.charRegisterDev o = ({ c with ledger := l }, 0) ∧
        Holding l₀ l (charParts ++ held) := by
  unfold charRegisterDev
  by_cases hregion : o.allocChrdevRegion < 0
  · exact .inl ⟨c.ledger, _, hregion.ne, by rw [if_pos hregion], h⟩
  have h₁ : Holding l₀ (c.acquire .chrdevRegion).ledger ([Resource.chrdevRegion] ++ held) :=
    h.acquire _
  rw [if_neg hregion]
  by_cases hcdev : o.cdevAdd < 0
  · obtain ⟨heq, hheld⟩ := release_of_holds h₁
    exact .inl ⟨_, _, hcdev.ne, by rw [if_pos hcdev, heq]; rfl, hheld⟩
  have h₂ : Holding l₀ ((c.acquire .chrdevRegion).acquire .cdev).ledger
    ([Resource.cdev, .chrdevRegion] ++ held) := h₁.acquire _
  have hptr : ∀ e : Fin 4095, ptrErr e ≠ 0 := by
    intro e
    unfold ptrErr
    omega
  rw [if_neg hcdev]
  cases hclass : o.classCreate with
  | some e =>
    obtain ⟨l, hl, hheld⟩ := releaseAll_of_holds h₂
    exact .inl ⟨l, _, hptr e, by simp only [hl]; rfl, hheld⟩
  | none =>
    have h₃ : Holding l₀ (((c.acquire .chrdevRegion).acquire .cdev).acquire .cl).ledger
      ([Resource.cl, .cdev, .chrdevRegion] ++ held) := h₂.acquire _
    cases hdevice : o.deviceCreate with
    | some e =>
      obtain ⟨l, hl, hheld⟩ := releaseAll_of_holds h₃
      exact .inl ⟨l, _, hptr e, by simp only [hl]; rfl, hheld⟩
    | none => exact .inr ⟨_, rfl, h₃.acquire .devNode⟩

/-- The call has given back all that it acquired, each once, and used nothing that was not live. -/
structure Undone (c c' : Card) : Prop where
  holds : Holding c.ledger c'.ledger []
  faults : c'.faults = c.faults
  msiEnabled : c'.msiEnabled = false
  running : c'.running = false

/-- The call holds all the resources of a probe, and used nothing that was not live. -/
structure Probed (c c' : Card) : Prop where
  holds : Holding c.ledger c'.ledger (probeParts c'.msiEnabled)
  faults : c'.faults = c.faults
  pktTx : c'.pktTx = true
  pktRx : c'.pktRx = true
  running : c'.running = true

/-- The last rungs of the ladders of `expt_probe` and `expt_remove`. -/
theorem undone_of_holds {c' : Card}
    (h : Holding c.ledger c'.ledger (msiParts c'.msiEnabled ++ pciParts))
    (hfaults : c'.faults = c.faults) (hrunning : c'.running = false) :
    Undone c (c'.disableMsi.releaseAll pciParts) := by
  have h' : Holding c.ledger c'.ledger (msiParts c'.msiEnabled ++ (pciParts ++ [])) := by
    rwa [List.append_nil]
  obtain ⟨l, hl, hheld⟩ := unwind_of_holds h'
  rw [hl]
  exact ⟨hheld, hfaults, rfl, hrunning⟩

/-- The ends of a part of a probe that began with the card `c₀`. -/
def Ends (c₀ : Card) (p : Card × ℤ) : Prop :=
  (p.2 ≠ 0 ∧ Undone c₀ p.1) ∨ (p.2 = 0 ∧ Probed c₀ p.1)

variable {c₀ : Card}

/-- What a card holds from `request_irq` on. -/
structure Wired (c₀ c : Card) : Prop where
  holding : Holding c₀.ledger c.ledger
    (.irq :: (bufferParts ++ (msiParts c.msiEnabled ++ pciParts)))
  faults : c.faults = c₀.faults
  pktTx : c.pktTx = true
  pktRx : c.pktRx = true

/-- The ladder from `hw_shut` on. -/
theorem Wired.shut (h : Wired c₀ c) :
    Undone c₀ ((c.hwShut.release .irq).cleanupBuffers.disableMsi.releaseAll pciParts) := by
  have hdrv : .drvdata ∈ msiParts c.msiEnabled ++ pciParts := List.mem_append_right _ (by decide)
  have hshut := hwShut_of_holds h.holding (by simp [hdrv]) (by simp [pciParts])
  obtain ⟨hfree, hheld⟩ := release_of_holds (c := c.hwShut) (by rw [hshut]; exact h.holding)
  rw [hfree, hshut]
  rw [hshut] at hheld
  obtain ⟨l, hl, hheld'⟩ := cleanupBuffers_of_holds (c := { c with
    running := false
    tx := { c.tx with dev := c.tx.dev.hwDisableIntr (intrMaskBits ||| intrErrMask) }
    ledger := c.ledger.release .irq }) hheld hdrv h.pktTx h.pktRx
  rw [hl]
  exact undone_of_holds hheld' h.faults rfl

/-- From `char_register_dev` on. -/
theorem Wired.probeChar_ends (h : Wired c₀ c) (hrunning : c.running = true) (o : ProbeOutcome) :
    Ends c₀ (c.probeChar o) := by
  unfold probeChar
  rcases charRegisterDev_of_holds h.holding o with ⟨l, e, he, hl, hheld⟩ | ⟨l, hl, hheld⟩
  · rw [hl]
    dsimp only
    rw [if_pos he]
    have hwired : Wired c₀ { c with ledger := l } := ⟨hheld, h.faults, h.pktTx, h.pktRx⟩
    exact .inl ⟨he, hwired.shut⟩
  · rw [hl]
    dsimp only
    rw [if_neg (by simp)]
    refine .inr ⟨rfl, ?_, h.faults, h.pktTx, h.pktRx, hrunning⟩
    simpa [probeParts] using hheld

/-- From `request_irq` on. -/
theorem probeIrq_ends
    (h : Holding c₀.ledger c.ledger (bufferParts ++ (msiParts c.msiEnabled ++ pciParts)))
    (hfaults : c.faults = c₀.faults) (hpktTx : c.pktTx = true) (hpktRx : c.pktRx = true)
    (hrunning : c.running = false) (o : ProbeOutcome) : Ends c₀ (c.probeIrq o) := by
  have hdrv : .drvdata ∈ msiParts c.msiEnabled ++ pciParts := List.mem_append_right _ (by decide)
  unfold probeIrq
  by_cases hirq : o.requestIrq ≠ 0
  · obtain ⟨l, hl, hheld⟩ := cleanupBuffers_of_holds h hdrv hpktTx hpktRx
    rw [if_pos hirq, hl]
    exact .inl ⟨hirq, undone_of_holds hheld hfaults hrunning⟩
  · have hwired : Wired c₀ (c.acquire .irq) := ⟨h.acquire .irq, hfaults, hpktTx, hpktRx⟩
    rw [if_neg hirq, hwInit_of_holds hwired.holding (by simp [pciParts]) (by simp [pciParts])]
    exact Wired.probeChar_ends (c := { c.acquire .irq with running := true, tx := _ })
      ⟨hwired.holding, hfaults, hpktTx, hpktRx⟩ rfl o

/-- From `setup_buffers` on. -/
theorem probeBuffers_ends (h : Holding c₀.ledger c.ledger (msiParts c.msiEnabled ++ pciParts))
    (hfaults : c.faults = c₀.faults) (hrunning : c.running = false)
    (hk : o.allocDescTx = true → o.allocDescRx = true →
      o.kmallocTx = true ∧ o.kmallocRx = true) : Ends c₀ (c.probeBuffers o) := by
  have hdrv : .drvdata ∈ msiParts c.msiEnabled ++ pciParts := List.mem_append_right _ (by decide)
  have hreg : .regBase ∈ msiParts c.msiEnabled ++ pciParts := List.mem_append_right _ (by decide)
  unfold probeBuffers
  rcases setupBuffers_of_holds h hdrv hreg hk with ⟨l, hl, hheld⟩ | ⟨l, hl, hheld⟩
  · rw [hl]
    dsimp only
    rw [if_pos (by decide)]
    have hne : -enomem ≠ 0 := by decide
    refine .inl ⟨hne, ?_⟩
    exact undone_of_holds hheld hfaults hrunning
  · rw [hl]
    dsimp only
    rw [if_neg (by simp)]
    exact probeIrq_ends (c := { c with ledger := l, pktTx := true, pktRx := true, tx := _ }) hheld
      hfaults rfl rfl hrunning o

/-- **The ends of a probe** whose two calls of `kmalloc` succeed. -/
theorem exptProbe_ends (hmsi : c.msiEnabled = false) (hrunning : c.running = false)
    (hk : Kmallocs o) : Ends c (c.exptProbe o) := by
  unfold exptProbe
  by_cases hdevice : o.enableDevice ≠ 0
  · rw [if_pos hdevice]
    exact .inl ⟨hdevice, holding_self _, rfl, hmsi, hrunning⟩
  have h₁ : Holding c.ledger (c.acquire .pciDevice).ledger [Resource.pciDevice] :=
    (holding_self _).acquire .pciDevice
  rw [if_neg hdevice]
  by_cases hregions : o.requestRegions ≠ 0
  · obtain ⟨l, hl, hheld⟩ := releaseAll_of_holds_all h₁
    rw [if_pos hregions, hl]
    exact .inl ⟨hregions, hheld, rfl, hmsi, hrunning⟩
  have h₂ : Holding c.ledger ((c.acquire .pciDevice).acquire .regions).ledger
    [Resource.regions, .pciDevice] := h₁.acquire _
  rw [if_neg hregions]
  by_cases hioremap : o.ioremap = false
  · obtain ⟨l, hl, hheld⟩ := releaseAll_of_holds_all h₂
    rw [if_pos hioremap, hl]
    exact .inl ⟨show -enodev ≠ 0 by decide, hheld, rfl, hmsi, hrunning⟩
  rw [if_neg hioremap]
  have h₄ : Holding c.ledger
    ((((c.acquire .pciDevice).acquire .regions).acquire .regBase).acquire .drvdata).ledger
    pciParts := (h₂.acquire _).acquire _
  obtain ⟨l, b, hl, hheld⟩ := enableMsi_of_holds h₄ hmsi o.enableMsi
  dsimp only
  rw [hl]
  exact probeBuffers_ends (c := { c with ledger := l, msiEnabled := b }) hheld rfl hrunning
    (hk (not_not.mp hdevice) (not_not.mp hregions) (Bool.eq_true_of_not_eq_false hioremap))

/-- **The end of a removal**. -/
theorem exptRemove_undone (h : Holding c₀.ledger c.ledger (probeParts c.msiEnabled))
    (hfaults : c.faults = c₀.faults) (hpktTx : c.pktTx = true) (hpktRx : c.pktRx = true) :
    Undone c₀ c.exptRemove := by
  have h' : Holding c₀.ledger c.ledger
      (charParts ++ .irq :: (bufferParts ++ (msiParts c.msiEnabled ++ pciParts))) := by
    simpa [probeParts] using h
  obtain ⟨l, hl, hheld⟩ := releaseAll_of_holds h'
  have hwired : Wired c₀ { c with ledger := l } := ⟨hheld, hfaults, hpktTx, hpktRx⟩
  unfold exptRemove charDeregisterDev
  rw [use_of_holds h' (by simp [pciParts])]
  have hchar : c.releaseAll [.devNode, .cl, .cdev, .chrdevRegion] = { c with ledger := l } := hl
  rw [hchar]
  exact hwired.shut

/-! ## A failed `kmalloc` -/

/-- Something that was not live was used. -/
def Faulty (c : Card) : Prop := c.faults ≠ []

theorem Faulty.use (h : c.Faulty) (a : Access) (r : Resource) : (c.use a r).Faulty := by
  unfold Card.use
  split_ifs
  · exact h
  · simp [Faulty]

theorem faulty_use (hr : r ∉ c.ledger.live) (a : Access) : (c.use a r).Faulty := by
  rw [use, if_neg hr]
  simp [Faulty]

theorem Faulty.release (h : c.Faulty) (r : Resource) : (c.release r).Faulty := h.use _ _

theorem Faulty.releaseAll (h : c.Faulty) (rs : List Resource) : (c.releaseAll rs).Faulty := by
  induction rs generalizing c with
  | nil => exact h
  | cons r rs ih => exact ih (h.release r)

theorem Faulty.disableMsi (h : c.Faulty) : c.disableMsi.Faulty := by
  unfold Card.disableMsi
  split_ifs
  · exact h.release _
  · exact h

theorem Faulty.kfreeTx (h : c.Faulty) : c.kfreeTx.Faulty := by
  unfold Card.kfreeTx
  split_ifs
  · exact h.release _
  · exact h

theorem Faulty.kfreeRx (h : c.Faulty) : c.kfreeRx.Faulty := by
  unfold Card.kfreeRx
  split_ifs
  · exact h.release _
  · exact h

theorem Faulty.cleanupBuffers (h : c.Faulty) : c.cleanupBuffers.Faulty :=
  ((((((h.use _ _).release _).kfreeRx).release _).kfreeTx).releaseAll _)

theorem Faulty.hwInit (h : c.Faulty) : c.hwInit.Faulty := (h.use _ _).use _ _

theorem Faulty.hwShut (h : c.Faulty) : c.hwShut.Faulty := (h.use _ _).use _ _

theorem Faulty.charRegisterDev (h : c.Faulty) (o : ProbeOutcome) :
    (c.charRegisterDev o).1.Faulty := by
  unfold Card.charRegisterDev
  split_ifs
  · exact h
  · exact h.release (c := c.acquire _) _
  · cases o.classCreate with
    | some e => exact h.releaseAll (c := (c.acquire _).acquire _) _
    | none =>
      cases o.deviceCreate with
      | some e => exact h.releaseAll (c := ((c.acquire _).acquire _).acquire _) _
      | none => exact h

theorem Faulty.probeChar (h : c.Faulty) (o : ProbeOutcome) : (c.probeChar o).1.Faulty := by
  have hchar := h.charRegisterDev o
  unfold Card.probeChar
  dsimp only
  split_ifs
  · exact (((hchar.hwShut.release _).cleanupBuffers).disableMsi).releaseAll _
  · exact hchar

theorem Faulty.probeIrq (h : c.Faulty) (o : ProbeOutcome) : (c.probeIrq o).1.Faulty := by
  unfold Card.probeIrq
  split_ifs
  · exact h.cleanupBuffers.disableMsi.releaseAll _
  · exact (Faulty.hwInit (c := c.acquire .irq) h).probeChar o

theorem Faulty.programChip (h : c.Faulty) (o : ProbeOutcome) : (c.programChip o).Faulty := by
  have hwritten := (((h.use .write .descTx).use .program .mapTx).use .write .descRx).use .program
    .mapRx
  unfold Card.programChip
  generalize (((c.use .write .descTx).use .program .mapTx).use .write .descRx).use .program
    .mapRx = d at hwritten ⊢
  have hprogrammed : Faulty { d with tx := d.tx.setupBuffers o.phyPktTx o.phyPktRx } := hwritten
  exact ((hprogrammed.use _ _).use _ _).use _ _

theorem mem_live_of_release {r' : Resource} (h : r ∈ (c.release r').ledger.live) :
    r ∈ c.ledger.live :=
  Multiset.mem_of_mem_erase h

theorem mem_live_of_releaseAll {rs : List Resource} (h : r ∈ (c.releaseAll rs).ledger.live) :
    r ∈ c.ledger.live := by
  induction rs generalizing c with
  | nil => exact h
  | cons r' rs ih => exact mem_live_of_release (ih h)

theorem mem_live_of_kfreeTx (h : r ∈ c.kfreeTx.ledger.live) : r ∈ c.ledger.live := by
  unfold kfreeTx at h
  split_ifs at h
  · exact mem_live_of_release h
  · exact h

theorem use_ledger (c : Card) (a : Access) (r : Resource) : (c.use a r).ledger = c.ledger := by
  unfold use
  split_ifs <;> rfl

/-- **A failed `kmalloc`**: a buffer that is not there is mapped. -/
theorem allocTx_faulty (htx : .pktTx ∉ c.ledger.live) (hk : o.kmallocTx = false) :
    (c.allocTx o).Faulty := by
  have hgone : .pktTx ∉ ({ c with pktTx := false }.releaseAll [.descRx, .descTx]).ledger.live :=
    fun h => htx (mem_live_of_releaseAll (c := { c with pktTx := false }) h)
  simp only [allocTx, hk, Bool.false_eq_true, if_false]
  exact faulty_use hgone .map

theorem allocRx_faulty (hrx : .pktRx ∉ c.ledger.live) (hk : o.kmallocRx = false) :
    (c.allocRx o).Faulty := by
  have hgone : .pktRx ∉ (({ c with pktRx := false }.release .mapTx).kfreeTx.releaseAll
      [.descRx, .descTx]).ledger.live := by
    intro h
    have hfreed := mem_live_of_kfreeTx (mem_live_of_releaseAll h)
    exact hrx (mem_live_of_release (c := { c with pktRx := false }) hfreed)
  simp only [allocRx, hk, Bool.false_eq_true, if_false]
  exact faulty_use hgone .map

theorem Faulty.allocRx (h : c.Faulty) (o : ProbeOutcome) : (c.allocRx o).Faulty := by
  unfold Card.allocRx
  split_ifs
  · exact Faulty.use (c := { c.acquire .pktRx with pktRx := true }) h _ _
  · have hundone := Faulty.release (c := { c with pktRx := false }) h .mapTx
    exact (hundone.kfreeTx.releaseAll _).use _ _

/-- `setup_buffers` does not notice. -/
theorem setupBuffers_faulty (htx : .pktTx ∉ c.ledger.live) (hrx : .pktRx ∉ c.ledger.live)
    (hdescTx : o.allocDescTx = true) (hdescRx : o.allocDescRx = true)
    (hk : ¬ (o.kmallocTx = true ∧ o.kmallocRx = true)) :
    (c.setupBuffers o).1.Faulty ∧ (c.setupBuffers o).2 = 0 := by
  simp only [setupBuffers, hdescTx, hdescRx, Bool.true_eq_false, if_false, and_true]
  refine Faulty.programChip ?_ o
  obtain ⟨d, hd⟩ : ∃ d : Card, d = ((c.use .deref .drvdata).acquire .descTx).acquire .descRx :=
    ⟨_, rfl⟩
  have hlive : d.ledger.live = .descRx ::ₘ .descTx ::ₘ c.ledger.live := by
    rw [hd, acquire, acquire, use_ledger]
    rfl
  rw [← hd]
  cases hkTx : o.kmallocTx with
  | false => exact (allocTx_faulty (by simp [hlive, htx]) hkTx).allocRx o
  | true =>
    have hkRx : o.kmallocRx = false := by simpa [hkTx] using hk
    refine allocRx_faulty ?_ hkRx
    simp [allocTx, mapSingle, hkTx, acquire, use_ledger, Ledger.acquire, hlive, hrx]

/-- A probe in which a `kmalloc` fails. -/
theorem exptProbe_faulty (hlive : c.ledger.live = 0) (hk : ¬ Kmallocs o) :
    (c.exptProbe o).1.Faulty := by
  simp only [Kmallocs, Classical.not_imp] at hk
  obtain ⟨hdevice, hregions, hioremap, hdescTx, hdescRx, hk⟩ := hk
  simp only [exptProbe, hdevice, hregions, hioremap, ne_eq, not_true_eq_false, if_false,
    Bool.true_eq_false]
  obtain ⟨d, hd⟩ : ∃ d : Card, d = ((((c.acquire .pciDevice).acquire .regions).acquire
    .regBase).acquire .drvdata).enableMsi o.enableMsi := ⟨_, rfl⟩
  have hnot : ∀ r, r = .pktTx ∨ r = .pktRx → r ∉ d.ledger.live := by
    intro r hr
    rw [hd, enableMsi]
    split_ifs <;> rcases hr with rfl | rfl <;> simp [acquire, Ledger.acquire, hlive]
  obtain ⟨hfaulty, hret⟩ := setupBuffers_faulty (c := d) (hnot _ (.inl rfl)) (hnot _ (.inr rfl))
    hdescTx hdescRx hk
  rw [← hd, probeBuffers]
  simp only [hret, ne_eq, not_true_eq_false, if_false]
  exact hfaulty.probeIrq o

end Card

/-! ## All or nothing -/

namespace Card

/-- A bound card has all the resources of a probe, any other card has none; everything acquired was
released exactly once or is live; and nothing was used, or released, that was not live. -/
structure Sound (c : Card) : Prop where
  bound : c.bound = true → c.ledger.live = probeParts c.msiEnabled
  unbound : c.bound = false → c.ledger.live = 0
  balanced : c.ledger.acquired = c.ledger.released + c.ledger.live
  faults : c.faults = []

/-- A sound card whose pointers and chip are as the driver left them. -/
structure Ready (c : Card) : Prop extends c.Sound where
  pktTx : c.bound = true → c.pktTx = true
  pktRx : c.bound = true → c.pktRx = true
  idle : c.bound = false → c.msiEnabled = false ∧ c.running = false

variable {c t : Card} {o : ProbeOutcome}

theorem ready_plugged : plugged.Ready where
  bound := Bool.noConfusion
  unbound _ := rfl
  balanced := rfl
  faults := rfl
  pktTx := Bool.noConfusion
  pktRx := Bool.noConfusion
  idle _ := ⟨rfl, rfl⟩

/-- A call that undid what it did leaves a card without a driver. -/
theorem Undone.ready {c₀ : Card} (h : Undone c₀ t) (hlive : c₀.ledger.live = 0)
    (hbalanced : c₀.ledger.acquired = c₀.ledger.released) (hfaults : c₀.faults = []) :
    Ready { t with bound := false } := by
  obtain ⟨done, hreleased, hacquired, hlive'⟩ := Ledger.Holds.balanced h.holds
  refine ⟨⟨Bool.noConfusion, fun _ => hlive'.trans hlive, ?_, h.faults.trans hfaults⟩,
    Bool.noConfusion, Bool.noConfusion, fun _ => ⟨h.msiEnabled, h.running⟩⟩
  rw [hacquired, hreleased, hlive', hlive, hbalanced, add_zero]

theorem Probed.ready (h : Probed c t) (hlive : c.ledger.live = 0)
    (hbalanced : c.ledger.acquired = c.ledger.released) (hfaults : c.faults = []) :
    Ready { t with bound := true } := by
  obtain ⟨done, hreleased, hacquired, hlive'⟩ := h.holds
  rw [hlive, zero_add] at hlive'
  refine ⟨⟨fun _ => hlive', Bool.noConfusion, ?_, h.faults.trans hfaults⟩, fun _ => h.pktTx,
    fun _ => h.pktRx, Bool.noConfusion⟩
  rw [hacquired, hreleased, hlive', hbalanced]

theorem Ready.probe (h : c.Ready) (hbound : c.bound = false) (hk : Kmallocs o) :
    Ready { (c.exptProbe o).1 with bound := decide ((c.exptProbe o).2 = 0) } := by
  have hlive := h.unbound hbound
  have hbalanced : c.ledger.acquired = c.ledger.released := by
    rw [h.balanced, hlive, add_zero]
  obtain ⟨hmsi, hrunning⟩ := h.idle hbound
  rcases exptProbe_ends hmsi hrunning hk with ⟨hret, hundone⟩ | ⟨hret, hprobed⟩
  · rw [decide_eq_false hret]
    exact hundone.ready hlive hbalanced h.faults
  · rw [decide_eq_true hret]
    exact hprobed.ready hlive hbalanced h.faults

theorem Ready.remove (h : c.Ready) (hbound : c.bound = true) :
    Ready { c.exptRemove with bound := false } := by
  -- the books as if nothing had been acquired that is still live
  obtain ⟨c₀, hc₀⟩ : ∃ c₀ : Card, c₀ = { c with
    ledger := ⟨0, c.ledger.released, c.ledger.released⟩ } := ⟨_, rfl⟩
  have hholding : Holding c₀.ledger c.ledger (probeParts c.msiEnabled) := by
    refine ⟨0, ?_, ?_, ?_⟩
    · simp [hc₀]
    · simp [hc₀, h.balanced, h.bound hbound]
    · simp [hc₀, h.bound hbound]
  have hundone := exptRemove_undone hholding (by rw [hc₀]) (h.pktTx hbound) (h.pktRx hbound)
  exact hundone.ready (by rw [hc₀]) (by rw [hc₀]) (by rw [hc₀]; exact h.faults)

end Card

/-- The two calls of `kmalloc` succeed in every probe that comes to them. -/
def KmallocsOk (_ : Card) : CardEvent → Prop
  | .probe o => Kmallocs o
  | .remove => True

instance (c : Card) : ∀ e, Decidable (KmallocsOk c e)
  | .probe o => inferInstanceAs (Decidable (Kmallocs o))
  | .remove => isTrue trivial

/-- **All or nothing**: through any sequence of probes and removals, with any outcome of their
steps, a probe returns 0 with all its resources or an error with none, nothing is released twice
or used after its release, and a removal leaves nothing, exactly as long as every probe that comes
to the two calls of `kmalloc` finds memory for both. -/
theorem sound_iff (es : List CardEvent) :
    Always cardStep Card.Sound .plugged es ↔ Along cardStep KmallocsOk .plugged es := by
  refine always_iff_along (J := Card.Ready) (fun _ h => h.toSound) ?_ ?_ Card.ready_plugged es
  · intro c e t h hok hstep
    cases e with
    | probe o =>
      simp only [cardStep] at hstep
      split_ifs at hstep with hbound
      rw [← Option.some.inj hstep]
      exact h.probe hbound hok
    | remove =>
      simp only [cardStep] at hstep
      split_ifs at hstep with hbound
      rw [← Option.some.inj hstep]
      exact h.remove hbound
  · intro c e t h hok hstep hsound
    cases e with
    | probe o =>
      simp only [cardStep] at hstep
      split_ifs at hstep with hbound
      have hfaulty := Card.exptProbe_faulty (h.unbound hbound) hok
      rw [← Option.some.inj hstep] at hsound
      exact hfaulty hsound.faults
    | remove => exact hok trivial

/-- A probe in which every step succeeds. -/
def ProbeOutcome.plenty : ProbeOutcome :=
  ⟨0, 0, true, 0, true, true, true, true, 0x1000#64, 0x2000#64, 0, 0, 0, none, none⟩

/-- The card is probed without memory for `pkt_tx`: the probe returns 0 with a mapping of nothing,
and with descriptors in the chip that were freed; the removal frees them again. -/
theorem kmalloc_unchecked :
    let o := { ProbeOutcome.plenty with kmallocTx := false }
    ((run cardStep .plugged [.probe o]).map fun c =>
        (c.bound, decide (.descTx ∈ c.ledger.live), c.faults)) =
      some (true, false, [(.map, .pktTx), (.write, .descTx), (.write, .descRx),
        (.program, .descTx), (.program, .descRx)]) ∧
    ((run cardStep .plugged [.probe o, .remove]).map fun c => c.faults.drop 5) =
      some [(.release, .descRx), (.release, .descTx)] ∧
    ¬ Always cardStep Card.Sound .plugged [.probe o] := by
  intro o
  have hprobe : ((run cardStep .plugged [.probe o]).map fun c =>
      (c.bound, decide (.descTx ∈ c.ledger.live), c.faults)) =
        some (true, false, [(.map, .pktTx), (.write, .descTx), (.write, .descRx),
          (.program, .descTx), (.program, .descRx)]) := by decide +kernel
  refine ⟨hprobe, by decide +kernel, ?_⟩
  intro h
  obtain ⟨t, ht, he⟩ := Option.map_eq_some_iff.mp hprobe
  rw [(h.of_run ht).faults] at he
  simp at he

end Expt
