import NanoCell.Rtl8101.ChipInit

/-!
# The life of the net device: probe and remove

`pn_probe` acquires the card step by step and hands it to `net_register_dev`, which builds the net
device around it; `pn_remove` undoes both. The two files share one pointer, the driver data of the
card: it holds the mapping of the registers while the net device is built and again while it is
taken down, and the net device in between. Every resource is entered in a ledger, and every pointer
that is not what its user takes it for is recorded.

Between a probe and a removal the device takes the steps of `Rtl8101.step`. A reset task that is
scheduled then is a delayed work: `flush_scheduled_work` waits for it only when its timer has
expired.

## Main definitions

* `Resource`, `VoidPtr`, `Misuse`: what is acquired, the driver data, and its wrong uses
* `Adapter`: the card with its ledger and its net device
* `Adapter.pnProbe`, `Adapter.pnRemove`, `Adapter.netRegisterDev`, `Adapter.netDeregisterDev`: the
  functions of the driver
* `adapterStep`: the system of probes, removals and the steps of the device
* `Adapter.Sound`: everything or nothing is held, and no pointer was misused

## Main results

* `sound_always`: the card is sound along every run
* `noOrphans_iff`: no reset task outlives its net device exactly when every removal finds none, or
  one that its flush runs to the end
* `groupBit_always`: every registration flips the group bit of the station address
-/

namespace Rtl8101

open Transition

/-! ## The card -/

/-- What a probe acquires: the enabled device, its memory write invalidate, its regions, the mapping
of its registers, its MSI, the net device and the registration of it. -/
inductive Resource where
  | pciDevice
  | mwi
  | regions
  | regBase (p : ℕ)
  | msi
  | netdev (p : ℕ)
  | registration (p : ℕ)
  deriving DecidableEq

/-- A pointer without a type, such as the driver data of a card. -/
inductive VoidPtr where
  | null
  | regBase (p : ℕ)
  | netdev (p : ℕ)
  deriving DecidableEq

/-- A pointer used as a mapping of registers, or as a net device, that is none, and a release of
what is not live. -/
inductive Misuse where
  | regBase (p : VoidPtr)
  | netdev (p : VoidPtr)
  | release (r : Resource)

/-- The outcome of each step of a probe. A step that returns an `int` succeeds with 0. -/
structure ProbeOutcome where
  enableDevice : ℤ
  setMwi : ℤ
  requestRegions : ℤ
  ioremap : Option ℕ
  setDmaMask : ℤ
  enableMsi : ℤ
  allocEtherdev : Option ℕ
  registerNetdev : ℤ

/-- What a removal finds: whether the timer of the reset task has expired, and the buffers that the
task then gets. -/
structure Flush where
  queued : Bool
  alloc : BitVec 32 → Allocator

/-- `ENODEV`. -/
def enodev : ℤ := 19

/-- A net device with its private data. -/
structure Netdev where
  ptr : ℕ
  regBase : VoidPtr
  devAddr : Fin 6 → BitVec 8
  device : Device

/-- The card: its driver data, its net device, the chip while it has none, the station address in
the chip, and the kernel's view of it. `registrations` counts the calls of
`rtl8101_get_mac_address`, and `orphans` the reset tasks whose net device was freed before their
timer expired. -/
structure Adapter where
  drvdata : VoidPtr
  netdev : Option Netdev
  chip : Chip
  mac : Fin 6 → BitVec 8
  msiEnabled : Bool
  bound : Bool
  ledger : Ledger Resource
  registrations : ℕ
  orphans : ℕ
  misuses : List Misuse

namespace Device

/-- `flush_scheduled_work`: a delayed work whose timer still runs is not on the queue. -/
def flushScheduledWork (s : Device) (f : Flush) : Device :=
  if s.taskPending = true ∧ f.queued = true then
    ({ s with taskPending := false } : Device).resetTask f.alloc
  else s

/-- `unregister_netdev` closes a device that is open. -/
def unregisterNetdev (s : Device) : Device := if s.running then s.ndoStop else s

end Device

/-- The device when a removal frees it. A removal is one step: nothing of the device comes between
`flush_scheduled_work` and `unregister_netdev`, such as a Tx timeout that schedules the task
again. -/
def Netdev.takenDown (d : Netdev) (f : Flush) : Device :=
  (d.device.flushScheduledWork f).unregisterNetdev

namespace Adapter

/-- The card before its first probe. -/
def plugged (mac : Fin 6 → BitVec 8) (chip : Chip) : Adapter :=
  ⟨.null, none, chip, mac, false, false, .empty, 0, 0, []⟩

/-- A pointer is not what its user takes it for. -/
def misuse (a : Adapter) (m : Misuse) : Adapter := { a with misuses := a.misuses ++ [m] }

/-- `r` is acquired. -/
def acquire (a : Adapter) (r : Resource) : Adapter := { a with ledger := a.ledger.acquire r }

/-- `r` is released. -/
def release (a : Adapter) (r : Resource) : Adapter :=
  let a := if r ∈ a.ledger.live then a else a.misuse (.release r)
  { a with ledger := a.ledger.release r }

/-- A ladder of releases. -/
def releaseAll (a : Adapter) (rs : List Resource) : Adapter := rs.foldl release a

/-- Accesses to the registers through `p`. -/
def access (a : Adapter) : VoidPtr → Adapter
  | .regBase p => if .regBase p ∈ a.ledger.live then a else a.misuse (.regBase (.regBase p))
  | p => a.misuse (.regBase p)

/-- `iounmap`. -/
def iounmap (a : Adapter) : VoidPtr → Adapter
  | .regBase p => a.release (.regBase p)
  | p => a.misuse (.regBase p)

/-- `netdev_priv` of the net device that `p` should point to. -/
def netdevPriv (a : Adapter) (p : VoidPtr) : Option Netdev :=
  a.netdev.filter fun d => p = .netdev d.ptr

/-- `pci_enable_msi`; a card without it goes on. -/
def enableMsi (a : Adapter) (retval : ℤ) : Adapter :=
  if retval ≠ 0 then a else { a.acquire .msi with msiEnabled := true }

/-- `if (pci_dev_msi_enabled(dev)) pci_disable_msi(dev)`. -/
def disableMsi (a : Adapter) : Adapter :=
  if a.msiEnabled = true then { a.release .msi with msiEnabled := false } else a

/-! ## The functions of the driver -/

/-- `net_register_dev`. The net device is zeroed memory; `rtl8101_hw_reset` and
`rtl8101_get_mac_address` are the first to use the registers. The chip is one that takes single
bytes of its station address, so that `getMacAddress_triple` leaves it counted up, on the chip and
in the net device. -/
def netRegisterDev (o : ProbeOutcome) (a : Adapter) : Adapter × ℤ :=
  let regBase := a.drvdata
  match o.allocEtherdev with
  | none => (a, enomem)
  | some p =>
    let a := (a.acquire (.netdev p)).access regBase
    let a := { a with
      chip := a.chip.hwReset
      mac := nextMac a.mac
      registrations := a.registrations + 1 }
    if o.registerNetdev ≠ 0 then (a.release (.netdev p), o.registerNetdev)
    else
      ({ a.acquire (.registration p) with
        netdev := some ⟨p, regBase, a.mac, { Device.registered with chip := a.chip }⟩
        drvdata := .netdev p }, 0)

/-- `net_deregister_dev`. -/
def netDeregisterDev (f : Flush) (a : Adapter) : Adapter :=
  match a.netdevPriv a.drvdata with
  | none => a.misuse (.netdev a.drvdata)
  | some d =>
    let a := { a with drvdata := d.regBase }.access d.regBase
    let device := d.takenDown f
    -- `free_netdev` does not look at the delayed work in the private data
    let a := (a.release (.registration d.ptr)).release (.netdev d.ptr)
    { a with
      netdev := none
      chip := device.chip
      orphans := a.orphans + if device.taskPending then 1 else 0 }

/-- `pn_probe`. -/
def pnProbe (o : ProbeOutcome) (a : Adapter) : Adapter × ℤ :=
  if o.enableDevice ≠ 0 then (a, o.enableDevice)
  else
    let a := a.acquire .pciDevice
    if o.setMwi ≠ 0 then (a.release .pciDevice, o.setMwi)
    else
      let a := a.acquire .mwi
      if o.requestRegions ≠ 0 then (a.releaseAll [.mwi, .pciDevice], o.requestRegions)
      else
        let a := a.acquire .regions
        match o.ioremap with
        | none => (a.releaseAll [.regions, .mwi, .pciDevice], -enodev)
        | some p =>
          let a := a.acquire (.regBase p)
          if o.setDmaMask ≠ 0 then
            (a.releaseAll [.regBase p, .regions, .mwi, .pciDevice], o.setDmaMask)
          else
            let a := { a.enableMsi o.enableMsi with drvdata := .regBase p }
            let (a, retval) := a.netRegisterDev o
            if retval ≠ 0 then
              let a := { a with drvdata := .null }.disableMsi
              (a.releaseAll [.regBase p, .regions, .mwi, .pciDevice], retval)
            else (a, 0)

/-- `pn_remove`. -/
def pnRemove (f : Flush) (a : Adapter) : Adapter :=
  let a := a.netDeregisterDev f
  let regBase := a.drvdata
  let a := { a with drvdata := .null }.disableMsi
  (a.iounmap regBase).releaseAll [.regions, .mwi, .pciDevice]

end Adapter

/-! ## The system -/

/-- A probe, a removal, or a step of the net device. -/
inductive AdapterEvent where
  | probe (o : ProbeOutcome)
  | remove (f : Flush)
  | device (e : Event)

/-- The actions of the NIC, which do not go through the mapping of the registers. -/
def Event.isNic : Event → Bool
  | .receive _ | .fetch | .complete => true
  | _ => false

/-- One event: the kernel probes a card that has no driver and removes one that has. -/
def adapterStep (maxSkbFrags : ℕ) (a : Adapter) : AdapterEvent → Option Adapter
  | .probe o =>
    if a.bound then none
    else
      let (a, retval) := a.pnProbe o
      some { a with bound := retval = 0 }
  | .remove f => if a.bound then some { a.pnRemove f with bound := false } else none
  | .device e => a.netdev.bind fun d => (step maxSkbFrags d.device e).map fun t =>
    { (if e.isNic then a else a.access d.regBase) with netdev := some { d with device := t } }

namespace Adapter

variable {a : Adapter} {o : ProbeOutcome} {l : Ledger Resource} {held : List Resource}

/-! ## What is held -/

/-- Everything acquired since the card was plugged in was released exactly once but `held`. -/
def Holding (l : Ledger Resource) (held : List Resource) : Prop :=
  Ledger.empty.Holds l (held : Multiset Resource)

theorem Holding.acquire (h : Holding l held) (r : Resource) :
    Holding (l.acquire r) (r :: held) := Ledger.Holds.acquire h r

theorem Holding.release {r : Resource} (h : Holding l (r :: held)) :
    Holding (l.release r) held := Ledger.Holds.release h

theorem Holding.mem_live {r : Resource} (h : Holding l held) (hr : r ∈ held) : r ∈ l.live :=
  Ledger.Holds.mem_live h (Multiset.mem_coe.mpr hr)

theorem release_of_holding {r : Resource} (h : Holding a.ledger (r :: held)) :
    a.release r = { a with ledger := a.ledger.release r } := by
  unfold Adapter.release
  rw [if_pos (h.mem_live List.mem_cons_self)]

/-- A ladder takes the last acquisitions back, in their order. -/
theorem releaseAll_of_holding {rs : List Resource} (h : Holding a.ledger (rs ++ held)) :
    ∃ l, a.releaseAll rs = { a with ledger := l } ∧ Holding l held := by
  induction rs generalizing a with
  | nil => exact ⟨a.ledger, rfl, h⟩
  | cons r rs ih =>
    obtain ⟨l, hl, hheld⟩ := ih (a := { a with ledger := a.ledger.release r }) h.release
    refine ⟨l, ?_, hheld⟩
    rw [releaseAll, List.foldl_cons, release_of_holding h]
    exact hl

/-- A mapping that is held can be used. -/
theorem access_of_holding {p : ℕ} (h : Holding a.ledger held) (hp : .regBase p ∈ held) :
    a.access (.regBase p) = a := if_pos (h.mem_live hp)

/-- The MSI, if it is enabled. -/
def msiParts (b : Bool) : List Resource := if b then [.msi] else []

/-- What `pn_probe` acquires, the last acquisition first. -/
def pciParts (p : ℕ) : List Resource := [.regBase p, .regions, .mwi, .pciDevice]

/-- What `net_register_dev` acquires. -/
def netParts (p : ℕ) : List Resource := [.registration p, .netdev p]

theorem enableMsi_of_holding (h : Holding a.ledger held) (hmsi : a.msiEnabled = false)
    (retval : ℤ) : ∃ l b, a.enableMsi retval = { a with ledger := l, msiEnabled := b } ∧
      Holding l (msiParts b ++ held) := by
  unfold enableMsi
  split_ifs
  · exact ⟨a.ledger, false, by rw [← hmsi], h⟩
  · exact ⟨_, true, rfl, h.acquire .msi⟩

theorem disableMsi_of_holding (h : Holding a.ledger (msiParts a.msiEnabled ++ held)) :
    ∃ l, a.disableMsi = { a with ledger := l, msiEnabled := false } ∧ Holding l held := by
  unfold disableMsi
  cases hmsi : a.msiEnabled with
  | true =>
    rw [hmsi] at h
    refine ⟨_, ?_, h.release⟩
    rw [if_pos rfl, release_of_holding h]
  | false =>
    rw [hmsi] at h
    refine ⟨a.ledger, ?_, h⟩
    rw [if_neg Bool.false_ne_true, ← hmsi]

/-- The last rungs of `pn_probe` and `pn_remove`. -/
theorem unwind_of_holding {p : ℕ} (h : Holding a.ledger (msiParts a.msiEnabled ++ pciParts p)) :
    ∃ l, ({ a with drvdata := .null }.disableMsi).releaseAll (pciParts p) =
        { a with drvdata := .null, msiEnabled := false, ledger := l } ∧ Holding l [] := by
  obtain ⟨l, hl, hpci⟩ := disableMsi_of_holding (a := { a with drvdata := .null }) h
  rw [← List.append_nil (pciParts p)] at hpci
  obtain ⟨l', hl', hnone⟩ := releaseAll_of_holding (a := { a with
    drvdata := .null
    msiEnabled := false
    ledger := l }) hpci
  exact ⟨l', by rw [hl, hl'], hnone⟩

/-! ## The ends of a probe, and a removal -/

/-- The card after `rtl8101_hw_reset` and `rtl8101_get_mac_address`. -/
def registering (a : Adapter) : Adapter :=
  { a with
    chip := a.chip.hwReset
    mac := nextMac a.mac
    registrations := a.registrations + 1 }

/-- The net device that `net_register_dev` builds at `q`, on the mapping at `p`. -/
def newNetdev (a : Adapter) (p q : ℕ) : Netdev :=
  ⟨q, .regBase p, nextMac a.mac, { Device.registered with chip := a.chip.hwReset }⟩

/-- **`net_register_dev`** takes all of its steps or none, on a mapping that is held. -/
theorem netRegisterDev_ends {p : ℕ} (h : Holding a.ledger held) (hp : .regBase p ∈ held)
    (hdrv : a.drvdata = .regBase p) (o : ProbeOutcome) :
    (∃ a₁ l e, (a₁ = a ∨ a₁ = a.registering) ∧ e ≠ 0 ∧
        a.netRegisterDev o = ({ a₁ with ledger := l }, e) ∧ Holding l held) ∨
      ∃ l q, a.netRegisterDev o = ({ a.registering with
          ledger := l
          netdev := some (a.newNetdev p q)
          drvdata := .netdev q }, 0) ∧ Holding l (netParts q ++ held) := by
  unfold netRegisterDev
  cases halloc : o.allocEtherdev with
  | none => exact .inl ⟨a, a.ledger, enomem, .inl rfl, by decide, rfl, h⟩
  | some q =>
    have h₁ : Holding (a.acquire (.netdev q)).ledger (.netdev q :: held) := h.acquire _
    have haccess := access_of_holding h₁ (List.mem_cons_of_mem _ hp)
    simp only [hdrv, haccess]
    by_cases hret : o.registerNetdev ≠ 0
    -- the net device is freed again, its address is not
    · rw [if_pos hret]
      refine .inl ⟨a.registering, _, _, .inr rfl, hret, ?_, h₁.release⟩
      exact congrArg (·, o.registerNetdev)
        (release_of_holding (a := { a.registering with ledger := _ }) h₁)
    · rw [if_neg hret]
      exact .inr ⟨_, q, rfl, h₁.acquire _⟩

/-- The card has no driver. -/
structure Unbound (a : Adapter) : Prop where
  bound : a.bound = false
  drvdata : a.drvdata = .null
  netdev : a.netdev = none
  msiEnabled : a.msiEnabled = false
  holding : Holding a.ledger []
  misuses : a.misuses = []

/-- The card is bound to the net device `d`, its registers mapped at `p`: all the resources of a
probe are held and no other, and the driver data leads to the net device and from there to the
mapping. -/
structure Bound (a : Adapter) (p : ℕ) (d : Netdev) : Prop where
  bound : a.bound = true
  drvdata : a.drvdata = .netdev d.ptr
  netdev : a.netdev = some d
  regBase : d.regBase = .regBase p
  holding : Holding a.ledger (netParts d.ptr ++ (msiParts a.msiEnabled ++ pciParts p))
  misuses : a.misuses = []

/-- **The ends of a probe**: it fails with an error and holds nothing, or it returns 0 and holds
everything. -/
theorem Unbound.pnProbe_ends (h : a.Unbound) (o : ProbeOutcome) :
    (∃ a₁ l e, (a₁ = a ∨ a₁ = a.registering) ∧ e ≠ 0 ∧
        a.pnProbe o = ({ a₁ with ledger := l }, e) ∧ Holding l []) ∨
      ∃ l b p q, a.pnProbe o = ({ a.registering with
          ledger := l
          msiEnabled := b
          netdev := some (a.newNetdev p q)
          drvdata := .netdev q }, 0) ∧
        Holding l (netParts q ++ (msiParts b ++ pciParts p)) := by
  have h₀ := h.holding
  have hladder : ∀ (a' : Adapter) (rs : List Resource) (e : ℤ), e ≠ 0 →
      (∃ l, a' = { a with ledger := l }) → Holding a'.ledger rs →
      ∃ a₁ l e', (a₁ = a ∨ a₁ = a.registering) ∧ e' ≠ 0 ∧
        (a'.releaseAll rs, e) = ({ a₁ with ledger := l }, e') ∧ Holding l [] := by
    rintro a' rs e he ⟨l', rfl⟩ hheld
    rw [← List.append_nil rs] at hheld
    obtain ⟨l, hl, hnone⟩ := releaseAll_of_holding hheld
    exact ⟨a, l, e, .inl rfl, he, by rw [hl], hnone⟩
  unfold pnProbe
  by_cases henable : o.enableDevice ≠ 0
  · rw [if_pos henable]
    exact .inl ⟨a, a.ledger, _, .inl rfl, henable, rfl, h₀⟩
  rw [if_neg henable]
  have h₁ : Holding (a.acquire .pciDevice).ledger [.pciDevice] := h₀.acquire _
  by_cases hmwi : o.setMwi ≠ 0
  · simp only [if_pos hmwi]
    exact .inl (hladder _ [.pciDevice] _ hmwi ⟨_, rfl⟩ h₁)
  simp only [if_neg hmwi]
  have h₂ : Holding ((a.acquire .pciDevice).acquire .mwi).ledger [.mwi, .pciDevice] := h₁.acquire _
  by_cases hregions : o.requestRegions ≠ 0
  · simp only [if_pos hregions]
    exact .inl (hladder _ _ _ hregions ⟨_, rfl⟩ h₂)
  simp only [if_neg hregions]
  have h₃ : Holding (((a.acquire .pciDevice).acquire .mwi).acquire .regions).ledger
    [.regions, .mwi, .pciDevice] := h₂.acquire _
  cases hmap : o.ioremap with
  | none => exact .inl (hladder _ _ _ (by decide) ⟨_, rfl⟩ h₃)
  | some p =>
    have h₄ : Holding ((((a.acquire .pciDevice).acquire .mwi).acquire .regions).acquire
      (.regBase p)).ledger (pciParts p) := h₃.acquire _
    by_cases hmask : o.setDmaMask ≠ 0
    · simp only [if_pos hmask]
      exact .inl (hladder _ _ _ hmask ⟨_, rfl⟩ h₄)
    simp only [if_neg hmask]
    obtain ⟨l, b, hmsi, h₅⟩ := enableMsi_of_holding h₄ h.msiEnabled o.enableMsi
    rw [hmsi]
    rcases netRegisterDev_ends (a := { a with
        ledger := l
        msiEnabled := b
        drvdata := .regBase p }) h₅ (List.mem_append_right _ (by simp [pciParts])) rfl o with
      ⟨a₁, l', e, ha₁, he, hreg, h₆⟩ | ⟨l', q, hreg, h₆⟩
    · have hb : a₁.msiEnabled = b := by rcases ha₁ with rfl | rfl <;> rfl
      obtain ⟨l₁, hl₁, h₇⟩ :=
        unwind_of_holding (a := { a₁ with ledger := l' }) (by rwa [← hb] at h₆)
      have hback : ∃ a₂, (a₂ = a ∨ a₂ = a.registering) ∧
          { a₁ with drvdata := .null, msiEnabled := false, ledger := l₁ } =
            { a₂ with ledger := l₁ } := by
        rcases ha₁ with rfl | rfl
        · exact ⟨a, .inl rfl, by rw [← h.drvdata, ← h.msiEnabled]⟩
        · exact ⟨a.registering, .inr rfl, by rw [← h.drvdata, ← h.msiEnabled]; rfl⟩
      obtain ⟨a₂, ha₂, heq⟩ := hback
      refine .inl ⟨a₂, l₁, e, ha₂, he, ?_, h₇⟩
      simp only [acquire, hreg, if_pos he]
      rw [← heq, ← hl₁]
      rfl
    · refine .inr ⟨l', b, p, q, ?_, h₆⟩
      simp only [acquire, hreg, ne_eq, not_true_eq_false, if_false]
      rfl

theorem iounmap_releaseAll (a : Adapter) (p : ℕ) :
    (a.iounmap (.regBase p)).releaseAll [.regions, .mwi, .pciDevice] =
      a.releaseAll (pciParts p) := by
  simp only [releaseAll, pciParts, List.foldl_cons, iounmap]

/-- **`net_deregister_dev`** finds the net device in the driver data, and puts the mapping back. -/
theorem Bound.netDeregisterDev_eq {p : ℕ} {d : Netdev} (h : a.Bound p d) (f : Flush) :
    ∃ l, a.netDeregisterDev f = { a with
        drvdata := .regBase p
        netdev := none
        chip := (d.takenDown f).chip
        ledger := l
        orphans := a.orphans + if (d.takenDown f).taskPending then 1 else 0 } ∧
      Holding l (msiParts a.msiEnabled ++ pciParts p) := by
  have hpriv : a.netdevPriv a.drvdata = some d := by
    simp [netdevPriv, h.netdev, h.drvdata]
  have hbase : .regBase p ∈ netParts d.ptr ++ (msiParts a.msiEnabled ++ pciParts p) := by
    simp [pciParts]
  have haccess := access_of_holding (a := { a with drvdata := .regBase p }) h.holding hbase
  obtain ⟨l, hl, hheld⟩ := releaseAll_of_holding (a := { a with drvdata := .regBase p }) h.holding
  have hl' : (({ a with drvdata := .regBase p } : Adapter).release (.registration d.ptr)).release
    (.netdev d.ptr) = { a with drvdata := .regBase p, ledger := l } := hl
  refine ⟨l, ?_, hheld⟩
  unfold netDeregisterDev
  simp only [hpriv, h.regBase, haccess, hl']

/-- **A removal** gives everything back, through the pointers that the registration left. -/
theorem Bound.pnRemove_eq {p : ℕ} {d : Netdev} (h : a.Bound p d) (f : Flush) :
    ∃ l, a.pnRemove f = { a with
        drvdata := .null
        netdev := none
        chip := (d.takenDown f).chip
        msiEnabled := false
        ledger := l
        orphans := a.orphans + if (d.takenDown f).taskPending then 1 else 0 } ∧
      Holding l [] := by
  obtain ⟨l, hnet, hheld⟩ := h.netDeregisterDev_eq f
  generalize d.takenDown f = device at hnet ⊢
  obtain ⟨l', hl', hnone⟩ := unwind_of_holding (a := { a with
    drvdata := .regBase p
    netdev := none
    chip := device.chip
    ledger := l
    orphans := a.orphans + if device.taskPending then 1 else 0 }) hheld
  refine ⟨l', ?_, hnone⟩
  simp only [pnRemove, hnet, iounmap_releaseAll]
  exact hl'

/-- The card is held as a whole by one net device, or not at all, and no pointer was misused. -/
def Sound (a : Adapter) : Prop := a.Unbound ∨ ∃ p d, a.Bound p d

theorem plugged_sound (mac : Fin 6 → BitVec 8) (chip : Chip) : (plugged mac chip).Sound :=
  .inl ⟨rfl, rfl, rfl, rfl, Ledger.holds_self _, rfl⟩

/-- What an event did to a card that was sound. -/
inductive Stepped (maxSkbFrags : ℕ) (a : Adapter) : AdapterEvent → Adapter → Prop
  | failed (o : ProbeOutcome) (a₁ : Adapter) (l : Ledger Resource) :
      a.Unbound → a₁ = a ∨ a₁ = a.registering → Holding l [] →
      Stepped maxSkbFrags a (.probe o) { a₁ with ledger := l, bound := false }
  | probed (o : ProbeOutcome) (l : Ledger Resource) (b : Bool) (p q : ℕ) :
      a.Unbound → Holding l (netParts q ++ (msiParts b ++ pciParts p)) →
      Stepped maxSkbFrags a (.probe o) { a.registering with
        ledger := l
        msiEnabled := b
        netdev := some (a.newNetdev p q)
        drvdata := .netdev q
        bound := true }
  | removed (f : Flush) (p : ℕ) (d : Netdev) (l : Ledger Resource) : a.Bound p d → Holding l [] →
      Stepped maxSkbFrags a (.remove f) { a with
        drvdata := .null
        netdev := none
        chip := (d.takenDown f).chip
        msiEnabled := false
        ledger := l
        orphans := a.orphans + if (d.takenDown f).taskPending then 1 else 0
        bound := false }
  | device (e : Event) (p : ℕ) (d : Netdev) (t : Device) : a.Bound p d →
      step maxSkbFrags d.device e = some t →
      Stepped maxSkbFrags a (.device e) { a with netdev := some { d with device := t } }

variable {maxSkbFrags : ℕ} {t : Adapter} {e : AdapterEvent}

/-- **The step function on a sound card, inverted.** -/
theorem Sound.step_inv (h : a.Sound) (hstep : adapterStep maxSkbFrags a e = some t) :
    Stepped maxSkbFrags a e t := by
  cases e with
  | probe o =>
    rcases h with h | ⟨p, d, h⟩
    · have hunbound : ¬ a.bound = true := by simp [h.bound]
      simp only [adapterStep, if_neg hunbound, Option.some.injEq] at hstep
      subst hstep
      rcases h.pnProbe_ends o with ⟨a₁, l, e, ha₁, he, heq, hheld⟩ | ⟨l, b, p, q, heq, hheld⟩
      · rw [heq]
        simpa [he] using Stepped.failed o a₁ l h ha₁ hheld
      · rw [heq]
        exact .probed o l b p q h hheld
    · simp [adapterStep, h.bound] at hstep
  | remove f =>
    rcases h with h | ⟨p, d, h⟩
    · simp [adapterStep, h.bound] at hstep
    · simp only [adapterStep, if_pos h.bound, Option.some.injEq] at hstep
      subst hstep
      obtain ⟨l, heq, hheld⟩ := h.pnRemove_eq f
      rw [heq]
      exact .removed f p d l h hheld
  | device e =>
    rcases h with h | ⟨p, d, h⟩
    · simp [adapterStep, h.netdev] at hstep
    · simp only [adapterStep, h.netdev, Option.bind_some] at hstep
      obtain ⟨u, hu, rfl⟩ := Option.map_eq_some_iff.mp hstep
      have haccess : a.access d.regBase = a := by
        rw [h.regBase]
        exact access_of_holding h.holding (by simp [pciParts])
      rw [haccess, ite_self]
      exact .device e p d u h hu

theorem Sound.step (h : a.Sound) (hstep : adapterStep maxSkbFrags a e = some t) : t.Sound := by
  cases h.step_inv hstep with
  | failed o a₁ l hun ha₁ hheld =>
    left
    rcases ha₁ with rfl | rfl
    · exact ⟨rfl, hun.drvdata, hun.netdev, hun.msiEnabled, hheld, hun.misuses⟩
    · exact ⟨rfl, hun.drvdata, hun.netdev, hun.msiEnabled, hheld, hun.misuses⟩
  | probed o l b p q hun hheld => exact .inr ⟨p, _, rfl, rfl, rfl, rfl, hheld, hun.misuses⟩
  | removed f p d l hb hheld => exact .inl ⟨rfl, rfl, rfl, rfl, hheld, hb.misuses⟩
  | device e p d u hb hu =>
    exact .inr ⟨p, { d with device := u }, hb.bound, hb.drvdata, rfl, hb.regBase, hb.holding,
      hb.misuses⟩

end Adapter

/-- **Probe and remove**: along every sequence of probes, with every outcome of their steps,
removals and steps of the net device, the card holds all the resources of one probe or none, every
other resource was released exactly once, and the driver data was always what its user took it
for. -/
theorem sound_always (maxSkbFrags : ℕ) (mac : Fin 6 → BitVec 8) (chip : Chip)
    (es : List AdapterEvent) :
    Always (adapterStep maxSkbFrags) Adapter.Sound (.plugged mac chip) es :=
  always_of_step (fun _ _ _ h hstep => h.step hstep) (Adapter.plugged_sound mac chip) es

/-! ## Reset tasks -/

namespace Device

/-- The removal finds no reset task, or one whose timer has expired and which does not schedule
itself again: it does so on an open device, when it could not refill the Rx ring. -/
def Flushed (s : Device) (f : Flush) : Prop :=
  s.taskPending = true → f.queued = true ∧ (s.running = true →
    (s.rx.rxInterrupt f.alloc (~~~0#32)).1.dirtyRx = (s.rx.rxInterrupt f.alloc (~~~0#32)).1.curRx)

theorem resetTask_taskPending (s : Device) (alloc : BitVec 32 → Allocator)
    (h : s.taskPending = false) : (s.resetTask alloc).taskPending = true ↔ s.running = true ∧
      (s.rx.rxInterrupt alloc (~~~0#32)).1.dirtyRx ≠
        (s.rx.rxInterrupt alloc (~~~0#32)).1.curRx := by
  unfold resetTask
  by_cases hrun : s.running = false
  · rw [if_pos hrun, h]
    simp [hrun]
  rw [if_neg hrun]
  have hopen : s.running = true := by simpa using hrun
  dsimp only
  generalize (s.rx.rxInterrupt alloc (~~~0#32)).1 = rx
  by_cases hidx : rx.dirtyRx = rx.curRx
  · rw [decide_eq_true hidx]
    exact iff_of_false (ne_true_of_eq_false h) fun hno => hno.2 hidx
  · rw [decide_eq_false hidx]
    exact iff_of_true rfl ⟨hopen, hidx⟩

/-- Closing the device does not cancel the task. -/
theorem unregisterNetdev_taskPending (s : Device) :
    s.unregisterNetdev.taskPending = s.taskPending := by
  unfold unregisterNetdev
  split_ifs
  · unfold ndoStop closeDev
    split_ifs
    · simp only [freeTxRing, freeRxRing, txClear, hwReset]
    · rfl
  · rfl

end Device

theorem Netdev.takenDown_taskPending (d : Netdev) (f : Flush) :
    (d.takenDown f).taskPending = false ↔ d.device.Flushed f := by
  rw [Netdev.takenDown, Device.unregisterNetdev_taskPending, Device.flushScheduledWork,
    Device.Flushed, ← Bool.not_eq_true]
  cases hpending : d.device.taskPending with
  | false => simp [hpending]
  | true =>
    cases hqueued : f.queued with
    | false => simp [hpending]
    | true =>
      rw [if_pos ⟨rfl, rfl⟩, Device.resetTask_taskPending _ _ rfl]
      simp

/-- A removal flushes the reset task of its device. -/
def FlushedAt (a : Adapter) (e : AdapterEvent) : Prop :=
  ∀ f d, e = .remove f → a.netdev = some d → d.device.Flushed f

theorem Adapter.Sound.orphans_step {maxSkbFrags : ℕ} {a t : Adapter} {e : AdapterEvent}
    (h : a.Sound) (hzero : a.orphans = 0) (hstep : adapterStep maxSkbFrags a e = some t) :
    t.orphans = 0 ↔ FlushedAt a e := by
  cases h.step_inv hstep with
  | failed o a₁ l hun ha₁ hheld =>
    have hkept : a₁.orphans = 0 := by
      rcases ha₁ with rfl | rfl
      · exact hzero
      · exact hzero
    exact iff_of_true hkept fun f d he => by cases he
  | probed o l b p q hun hheld => exact iff_of_true hzero fun f d he => by cases he
  | device e p d u hb hu => exact iff_of_true hzero fun f d he => by cases he
  | removed f p d l hb hheld =>
    have hflushed : FlushedAt a (.remove f) ↔ d.device.Flushed f := by
      constructor
      · intro hat
        exact hat f d rfl hb.netdev
      · rintro hd f' d' hf hd'
        cases hf
        rw [hb.netdev, Option.some.injEq] at hd'
        rwa [← hd']
    rw [hflushed, ← d.takenDown_taskPending f]
    cases hpending : (d.takenDown f).taskPending with
    | false => simp [hzero]
    | true => simp [hzero]

/-- **No reset task outlives its net device**, exactly in the runs whose removals all find no task,
or one that their flush runs to the end: closing the device does not cancel a delayed work, and
`flush_scheduled_work` does not wait for one whose timer still runs. The runs have removals as one
step, so none in which a Tx timeout comes between the flush and the end of one. -/
theorem noOrphans_iff (maxSkbFrags : ℕ) (mac : Fin 6 → BitVec 8) (chip : Chip)
    (es : List AdapterEvent) :
    Always (adapterStep maxSkbFrags) (fun a => a.orphans = 0) (.plugged mac chip) es ↔
      Along (adapterStep maxSkbFrags) FlushedAt (.plugged mac chip) es := by
  refine always_iff_along (J := fun a : Adapter => a.Sound ∧ a.orphans = 0) (fun a h => h.2) ?_ ?_
    ⟨Adapter.plugged_sound mac chip, rfl⟩ es
  · rintro a e t ⟨h, hzero⟩ hok hstep
    exact ⟨h.step hstep, (h.orphans_step hzero hstep).mpr hok⟩
  · rintro a e t ⟨h, hzero⟩ hno hstep hzero'
    exact hno ((h.orphans_step hzero hstep).mp hzero')

/-! ## The station address -/

theorem groupBit_nextMac (addr : Fin 6 → BitVec 8) : groupBit (nextMac addr) = !groupBit addr := by
  unfold groupBit nextMac
  rw [Function.update_self]
  generalize addr 0 = b
  revert b
  decide

/-- The chip has the address `mac`, counted up once in every registration, and so has the net
device. -/
structure Adapter.Addressed (mac : Fin 6 → BitVec 8) (a : Adapter) : Prop where
  chip : a.mac = nextMac^[a.registrations] mac
  netdev : ∀ d, a.netdev = some d → d.devAddr = a.mac

theorem Adapter.Addressed.step {maxSkbFrags : ℕ} {mac : Fin 6 → BitVec 8} {a t : Adapter}
    {e : AdapterEvent} (h : a.Addressed mac) (hsound : a.Sound)
    (hstep : adapterStep maxSkbFrags a e = some t) : t.Addressed mac := by
  have hnext : nextMac a.mac = nextMac^[a.registrations + 1] mac := by
    rw [Function.iterate_succ_apply', ← h.chip]
  cases hsound.step_inv hstep with
  | failed o a₁ l hun ha₁ hheld =>
    have hnone : ∀ d, a.netdev = some d → d.devAddr = nextMac a.mac := by
      intro d hd
      rw [hun.netdev] at hd
      cases hd
    rcases ha₁ with rfl | rfl
    · exact ⟨h.chip, h.netdev⟩
    · exact ⟨hnext, hnone⟩
  | probed o l b p q hun hheld =>
    refine ⟨hnext, ?_⟩
    rintro d hd
    cases hd
    rfl
  | removed f p d l hb hheld => exact ⟨h.chip, fun d hd => by cases hd⟩
  | device e p d u hb hu =>
    refine ⟨h.chip, ?_⟩
    rintro d' hd'
    cases hd'
    exact h.netdev d hb.netdev

theorem groupBit_iterate (mac : Fin 6 → BitVec 8) (k : ℕ) :
    groupBit (nextMac^[k] mac) = (groupBit mac ^^ decide (k % 2 = 1)) := by
  induction k with
  | zero => simp
  | succ k ih =>
    rw [Function.iterate_succ_apply', groupBit_nextMac, ih]
    rcases Nat.mod_two_eq_zero_or_one k with hk | hk
    · have hk' : (k + 1) % 2 = 1 := by omega
      simp [hk, hk']
    · have hk' : (k + 1) % 2 = 0 := by omega
      simp [hk, hk']

/-- **The station address**: along every run a net device has the address of the chip, which is a
multicast address after every other registration, the failed ones included, whatever it was at
first. -/
theorem groupBit_always (maxSkbFrags : ℕ) (mac : Fin 6 → BitVec 8) (chip : Chip)
    (es : List AdapterEvent) :
    Always (adapterStep maxSkbFrags)
      (fun a => groupBit a.mac = (groupBit mac ^^ decide (a.registrations % 2 = 1)) ∧
        ∀ d, a.netdev = some d → d.devAddr = a.mac) (.plugged mac chip) es := by
  have hinv : Always (adapterStep maxSkbFrags) (fun a => a.Sound ∧ a.Addressed mac)
      (.plugged mac chip) es := by
    refine always_of_step ?_ ⟨Adapter.plugged_sound mac chip, rfl, fun d hd => by cases hd⟩ es
    rintro a e t ⟨hsound, h⟩ hstep
    exact ⟨hsound.step hstep, h.step hsound hstep⟩
  refine hinv.mono ?_
  rintro a ⟨-, h⟩
  refine ⟨?_, h.netdev⟩
  rw [h.chip]
  exact groupBit_iterate mac a.registrations

end Rtl8101
