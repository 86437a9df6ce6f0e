import NanoCell.Lib.Intrusive
import NanoCell.Lib.Memory

/-!
# The packet buffers of snull

The two devices `sn0` and `sn1` send through packets of a pool that each device sets up. The pool
and the queue of received packets are lists that run through the `next` pointers of the packets
themselves; a packet is taken from the pool of the sender, put into the queue of the receiver, and
given back to the pool of the device that is recorded in it. Every access to a list is made with the
lock of the device held.

## Main definitions

* `State`: the packets, the private data of the two devices and the frames of the stack
* `snullGetTxBuffer`, `snullReleaseBuffer`, `snullEnqueueBuf`, `snullDequeueBuf`: the operations
* `start`: the devices after `snull_setup_pool`

## Main results

* `exec_cases`: what a call can do, from which `exec_take` and `exec_give` read off the lists
* `setupPoolFrom_induct`: what every new packet keeps is kept by the setup of a pool
-/

namespace Snull

/-- The devices `snull_devs[0]` and `snull_devs[1]`. -/
inductive Dev where
  | sn0
  | sn1
  deriving DecidableEq, Repr

/-- An address, of a packet or of a frame. -/
abbrev Ptr := ℕ

/-- `ETH_DATA_LEN`: the size of the array in a packet. -/
def ethDataLen : ℕ := 1500

/-- A `struct snull_packet`. The array `data` is the first `ETH_DATA_LEN` bytes from its offset on;
what is behind it belongs to the memory after the packet. -/
structure SnullPacket where
  next : Option Ptr
  dev : Dev
  datalen : ℤ
  data : Memory (BitVec 8)

/-- A `struct snull_priv`. -/
structure SnullPriv where
  status : BitVec 32
  ppool : Option Ptr
  rxQueue : Option Ptr
  txPacketlen : ℤ
  txPacketdata : Option Ptr
  locked : Bool

/-- The lists that run through the packets. -/
inductive PacketList where
  | pool (dev : Dev)
  | queue (dev : Dev)
  deriving DecidableEq, Repr

/-- The device that has the list. -/
def PacketList.device : PacketList → Dev
  | .pool dev => dev
  | .queue dev => dev

instance : Fintype PacketList where
  elems := {.pool .sn0, .pool .sn1, .queue .sn0, .queue .sn1}
  complete := by rintro ((_ | _) | (_ | _)) <;> decide

/-- The memory of the module. -/
structure State where
  pkts : Ptr → SnullPacket
  priv : Dev → SnullPriv
  /-- The frames that the stack sends. -/
  bufs : Ptr → Memory (BitVec 8)
  /-- What `kmalloc` returned in the setup of a device. -/
  allocated : Dev → List Ptr
  /-- The writes behind the array of a packet, with the length of the copy. -/
  overruns : List (Ptr × ℕ)

namespace State

variable (s : State)

/-- The `next` pointers. -/
def next (pkt : Ptr) : Option Ptr := (s.pkts pkt).next

/-- The devices that the packets belong to. -/
def dev (pkt : Ptr) : Dev := (s.pkts pkt).dev

/-- The first packet of a list: `priv->ppool`, `priv->rx_queue`. -/
def head : PacketList → Option Ptr
  | .pool dev => (s.priv dev).ppool
  | .queue dev => (s.priv dev).rxQueue

def setPriv (dev : Dev) (priv : SnullPriv) : State :=
  { s with priv := Function.update s.priv dev priv }

def setHead (i : PacketList) (pkt : Option Ptr) : State :=
  match i with
  | .pool dev => s.setPriv dev { s.priv dev with ppool := pkt }
  | .queue dev => s.setPriv dev { s.priv dev with rxQueue := pkt }

def setNext (pkt : Ptr) (next : Option Ptr) : State :=
  { s with pkts := Function.update s.pkts pkt { s.pkts pkt with next := next } }

def setDev (pkt : Ptr) (dev : Dev) : State :=
  { s with pkts := Function.update s.pkts pkt { s.pkts pkt with dev := dev } }

/-- `spin_lock_irqsave(&priv->lock, flags)`, once the lock is free. -/
def spinLock (dev : Dev) : State := s.setPriv dev { s.priv dev with locked := true }

/-- `spin_unlock_irqrestore(&priv->lock, flags)`. -/
def spinUnlock (dev : Dev) : State := s.setPriv dev { s.priv dev with locked := false }

/-- `pkt->next = head; head = pkt`. -/
def push (i : PacketList) (pkt : Ptr) : State := (s.setNext pkt (s.head i)).setHead i (some pkt)

section Fields

variable {s} {i : PacketList} {device : Dev} {priv : SnullPriv} {pkt : Ptr} {p : Option Ptr}

@[simp] theorem next_spinLock : (s.spinLock device).next = s.next := rfl

@[simp] theorem dev_spinLock : (s.spinLock device).dev = s.dev := rfl

@[simp] theorem allocated_spinLock : (s.spinLock device).allocated = s.allocated := rfl

@[simp] theorem next_spinUnlock : (s.spinUnlock device).next = s.next := rfl

@[simp] theorem dev_spinUnlock : (s.spinUnlock device).dev = s.dev := rfl

@[simp] theorem allocated_spinUnlock : (s.spinUnlock device).allocated = s.allocated := rfl

@[simp] theorem priv_setPriv_self : (s.setPriv device priv).priv device = priv := by
  simp [setPriv]

theorem priv_setPriv_of_ne {other : Dev} (h : other ≠ device) :
    (s.setPriv device priv).priv other = s.priv other := by
  simp [setPriv, h]

@[simp] theorem next_setHead : (s.setHead i p).next = s.next := by
  cases i <;> rfl

@[simp] theorem dev_setHead : (s.setHead i p).dev = s.dev := by
  cases i <;> rfl

@[simp] theorem allocated_setHead : (s.setHead i p).allocated = s.allocated := by
  cases i <;> rfl

theorem head_setPriv_of_eq (h : priv.ppool = (s.priv device).ppool)
    (h' : priv.rxQueue = (s.priv device).rxQueue) : (s.setPriv device priv).head = s.head := by
  funext i
  rcases i with other | other <;> rcases eq_or_ne other device with rfl | hne
  · simp [head, h]
  · simp [head, priv_setPriv_of_ne hne]
  · simp [head, h']
  · simp [head, priv_setPriv_of_ne hne]

@[simp] theorem head_spinLock : (s.spinLock device).head = s.head :=
  head_setPriv_of_eq rfl rfl

@[simp] theorem head_spinUnlock : (s.spinUnlock device).head = s.head :=
  head_setPriv_of_eq rfl rfl

/-- The heads are independent of each other. -/
@[simp] theorem head_setHead : (s.setHead i p).head = Function.update s.head i p := by
  funext j
  rcases i with device | device <;> rcases j with other | other <;>
    rcases eq_or_ne other device with rfl | hne <;>
    simp_all [head, setHead, setPriv]

@[simp] theorem next_setNext : (s.setNext pkt p).next = Function.update s.next pkt p := by
  funext other
  rcases eq_or_ne other pkt with rfl | hne
  · simp [next, setNext]
  · simp [next, setNext, hne]

@[simp] theorem dev_setNext : (s.setNext pkt p).dev = s.dev := by
  funext other
  rcases eq_or_ne other pkt with rfl | hne
  · simp [dev, setNext]
  · simp [dev, setNext, hne]

@[simp] theorem head_setNext : (s.setNext pkt p).head = s.head := by
  funext j
  cases j <;> rfl

@[simp] theorem allocated_setNext : (s.setNext pkt p).allocated = s.allocated := rfl

@[simp] theorem next_setDev : (s.setDev pkt device).next = s.next := by
  funext other
  rcases eq_or_ne other pkt with rfl | hne
  · simp [next, setDev]
  · simp [next, setDev, hne]

@[simp] theorem dev_setDev : (s.setDev pkt device).dev = Function.update s.dev pkt device := by
  funext other
  rcases eq_or_ne other pkt with rfl | hne
  · simp [dev, setDev]
  · simp [dev, setDev, hne]

@[simp] theorem head_setDev : (s.setDev pkt device).head = s.head := by
  funext j
  cases j <;> rfl

@[simp] theorem allocated_setDev : (s.setDev pkt device).allocated = s.allocated := rfl

end Fields

end State

/-! ## The operations -/

/-- `snull_get_tx_buffer`. -/
def snullGetTxBuffer (s : State) (dev : Dev) : State × Option Ptr :=
  let s := s.spinLock dev
  match s.head (.pool dev) with
  -- `return pkt;`, without giving the lock back
  | none => (s, none)
  | some pkt =>
    let s := s.setHead (.pool dev) (s.next pkt)
    (s.spinUnlock dev, some pkt)

/-- `snull_release_buffer`: the packet goes to the pool of the device that is recorded in it. -/
def snullReleaseBuffer (s : State) (pkt : Ptr) : State :=
  let dev := s.dev pkt
  let s := s.spinLock dev
  let s := s.push (.pool dev) pkt
  s.spinUnlock dev

/-- `snull_enqueue_buf`. -/
def snullEnqueueBuf (s : State) (dev : Dev) (pkt : Ptr) : State :=
  let s := s.spinLock dev
  let s := s.push (.queue dev) pkt
  s.spinUnlock dev

/-- `snull_dequeue_buf`. -/
def snullDequeueBuf (s : State) (dev : Dev) : State × Option Ptr :=
  let s := s.spinLock dev
  match s.head (.queue dev) with
  | none => (s.spinUnlock dev, none)
  | some pkt =>
    let s := s.setHead (.queue dev) (s.next pkt)
    (s.spinUnlock dev, some pkt)

/-- A call of an operation. -/
inductive Op where
  | getTxBuffer (dev : Dev)
  | releaseBuffer (pkt : Ptr)
  | enqueueBuf (dev : Dev) (pkt : Ptr)
  | dequeueBuf (dev : Dev)
  deriving DecidableEq, Repr

/-- A call, and the packet that it returns. -/
def exec (s : State) : Op → State × Option Ptr
  | .getTxBuffer dev => snullGetTxBuffer s dev
  | .releaseBuffer pkt => (snullReleaseBuffer s pkt, none)
  | .enqueueBuf dev pkt => (snullEnqueueBuf s dev pkt, none)
  | .dequeueBuf dev => snullDequeueBuf s dev

/-- The packet that is handed to a call. -/
def Op.arg : Op → Option Ptr
  | .getTxBuffer _ => none
  | .releaseBuffer pkt => some pkt
  | .enqueueBuf _ pkt => some pkt
  | .dequeueBuf _ => none

/-- The device whose lock a call takes. -/
def Op.device (s : State) : Op → Dev
  | .getTxBuffer dev => dev
  | .releaseBuffer pkt => s.dev pkt
  | .enqueueBuf dev _ => dev
  | .dequeueBuf dev => dev

section Exec

variable {s : State} {dev : Dev} {pkt : Ptr} {op : Op}

theorem snullGetTxBuffer_none (h : s.head (.pool dev) = none) :
    snullGetTxBuffer s dev = (s.spinLock dev, none) := by
  simp [snullGetTxBuffer, h]

theorem snullGetTxBuffer_some (h : s.head (.pool dev) = some pkt) :
    snullGetTxBuffer s dev =
      (((s.spinLock dev).setHead (.pool dev) (s.next pkt)).spinUnlock dev, some pkt) := by
  simp [snullGetTxBuffer, h]

/-- **What a call can do**: it finds a list empty, takes the first packet off a list, or puts the
packet that it was given in front of a list. The lock is given back unless it is the pool that is
empty. -/
theorem exec_cases (s : State) (op : Op) :
    (∃ dev, op = .getTxBuffer dev ∧ s.head (.pool dev) = none ∧
        exec s op = (s.spinLock dev, none)) ∨
      (∃ dev, op = .dequeueBuf dev ∧ exec s op = ((s.spinLock dev).spinUnlock dev, none)) ∨
      (∃ i pkt, op.arg = none ∧ op.device s = i.device ∧ s.head i = some pkt ∧
        exec s op =
          (((s.spinLock i.device).setHead i (s.next pkt)).spinUnlock i.device, some pkt)) ∨
      ∃ i pkt, op.arg = some pkt ∧ op.device s = i.device ∧
        (∀ dev, i = .pool dev → s.dev pkt = dev) ∧
        exec s op = (((s.spinLock i.device).push i pkt).spinUnlock i.device, none) := by
  cases op with
  | getTxBuffer dev =>
    cases h : s.head (.pool dev) with
    | none => exact .inl ⟨dev, rfl, h, snullGetTxBuffer_none h⟩
    | some pkt =>
      exact .inr (.inr (.inl ⟨.pool dev, pkt, rfl, rfl, h, snullGetTxBuffer_some h⟩))
  | dequeueBuf dev =>
    cases h : s.head (.queue dev) with
    | none =>
      refine .inr (.inl ⟨dev, rfl, ?_⟩)
      simp [exec, snullDequeueBuf, h]
    | some pkt =>
      refine .inr (.inr (.inl ⟨.queue dev, pkt, rfl, rfl, h, ?_⟩))
      simp [exec, snullDequeueBuf, h, PacketList.device]
  | releaseBuffer pkt =>
    refine .inr (.inr (.inr ⟨.pool (s.dev pkt), pkt, rfl, rfl, ?_, rfl⟩))
    intro dev h
    exact PacketList.pool.inj h
  | enqueueBuf dev pkt =>
    refine .inr (.inr (.inr ⟨.queue dev, pkt, rfl, rfl, ?_, rfl⟩))
    intro dev h
    cases h

/-- A call without a packet takes the first packet off a list, or finds the list empty. -/
theorem exec_take (hop : op.arg = none) :
    (exec s op).2 = none ∧ (exec s op).1.head = s.head ∧ (exec s op).1.next = s.next ∨
      ∃ i pkt, s.head i = some pkt ∧ (exec s op).2 = some pkt ∧
        (exec s op).1.head = Function.update s.head i (s.next pkt) ∧
        (exec s op).1.next = s.next := by
  rcases exec_cases s op with ⟨dev, -, -, he⟩ | ⟨dev, -, he⟩ | ⟨i, pkt, -, -, hi, he⟩ |
    ⟨i, pkt, harg, -⟩
  · left
    simp [he]
  · left
    simp [he]
  · right
    exact ⟨i, pkt, hi, by simp [he]⟩
  · rw [hop] at harg
    cases harg

/-- A call with a packet puts it in front of a list, if that is a pool then the one of the packet's
device. -/
theorem exec_give (hop : op.arg = some pkt) :
    ∃ i, (∀ dev, i = .pool dev → s.dev pkt = dev) ∧
      (exec s op).1.head = Function.update s.head i (some pkt) ∧
      (exec s op).1.next = Function.update s.next pkt (s.head i) := by
  rcases exec_cases s op with ⟨dev, rfl, -⟩ | ⟨dev, rfl, -⟩ | ⟨i, p, harg, -⟩ |
    ⟨i, p, harg, -, hdev, he⟩
  · cases hop
  · cases hop
  · rw [hop] at harg
    cases harg
  · rw [hop] at harg
    cases harg
    exact ⟨i, hdev, by simp [he, State.push]⟩

/-- No call changes what a packet belongs to. -/
theorem exec_keeps : (exec s op).1.dev = s.dev ∧ (exec s op).1.allocated = s.allocated := by
  rcases exec_cases s op with ⟨dev, -, -, he⟩ | ⟨dev, -, he⟩ | ⟨i, pkt, -, -, -, he⟩ |
    ⟨i, pkt, -, -, -, he⟩ <;> simp [he, State.push]

end Exec

/-! ## Setting up the pools -/

/-- The outcomes of `kmalloc` in the setup of a device, given what was returned before. -/
structure Kmalloc where
  outcome : Dev → List Ptr → Option Ptr
  fresh : ∀ dev before pkt, outcome dev before = some pkt → pkt ∉ before

/-- An allocator that never fails: a new packet lies behind all others. -/
def kmallocNext : Kmalloc where
  outcome _ before := some (before.sum + 1)
  fresh := by
    intro _ before pkt hout hmem
    have hlt : before.sum < pkt := Option.some.inj hout ▸ Nat.lt_succ_self _
    exact absurd (List.le_sum_of_mem hmem) (not_le.mpr hlt)

/-- The body of the loop of `snull_setup_pool`, after `kmalloc` returned `pkt`. -/
def State.addPacket (s : State) (dev : Dev) (pkt : Ptr) : State :=
  let s := { s with allocated := Function.update s.allocated dev (pkt :: s.allocated dev) }
  let s := s.setDev pkt dev
  s.push (.pool dev) pkt

section AddPacket

variable {s : State} {dev : Dev} {pkt : Ptr}

theorem State.next_addPacket :
    (s.addPacket dev pkt).next = Function.update s.next pkt (s.head (.pool dev)) := by
  simp only [addPacket, push, next_setHead, next_setNext, next_setDev, head_setDev]
  rfl

theorem State.dev_addPacket : (s.addPacket dev pkt).dev = Function.update s.dev pkt dev := by
  simp only [addPacket, push, dev_setHead, dev_setNext, dev_setDev]
  rfl

theorem State.head_addPacket :
    (s.addPacket dev pkt).head = Function.update s.head (.pool dev) (some pkt) := by
  simp only [addPacket, push, head_setHead, head_setNext, head_setDev]
  funext i
  cases i <;> rfl

theorem State.allocated_addPacket :
    (s.addPacket dev pkt).allocated =
      Function.update s.allocated dev (pkt :: s.allocated dev) := by
  simp only [addPacket, push, allocated_setHead, allocated_setNext, allocated_setDev]

end AddPacket

/-- The loop of `snull_setup_pool` for `turns` more turns. -/
def setupPoolFrom (k : Kmalloc) (dev : Dev) : (turns : ℕ) → State → State
  | 0, s => s
  | turns + 1, s =>
    match k.outcome dev (s.allocated .sn0 ++ s.allocated .sn1) with
    | none => s
    | some pkt => setupPoolFrom k dev turns (s.addPacket dev pkt)

/-- **The induction rule for the setup of a pool**: what a new packet keeps is kept. -/
theorem setupPoolFrom_induct {k : Kmalloc} {dev : Dev} {P : State → Prop}
    (hadd : ∀ s pkt, P s → pkt ∉ s.allocated .sn0 ++ s.allocated .sn1 → P (s.addPacket dev pkt))
    (turns : ℕ) {s : State} (hs : P s) : P (setupPoolFrom k dev turns s) := by
  induction turns generalizing s with
  | zero => exact hs
  | succ turns ih =>
    cases hout : k.outcome dev (s.allocated .sn0 ++ s.allocated .sn1) with
    | none =>
      rw [setupPoolFrom, hout]
      exact hs
    | some pkt =>
      rw [setupPoolFrom, hout]
      exact ih (hadd s pkt hs (k.fresh _ _ _ hout))

/-- `snull_setup_pool`. No turn is taken if `pool_size` is negative. -/
def snullSetupPool (k : Kmalloc) (poolSize : ℤ) (s : State) (dev : Dev) : State :=
  setupPoolFrom k dev poolSize.toNat (s.setHead (.pool dev) none)

/-- The private data as `alloc_netdev` and `spin_lock_init` leave it. -/
def SnullPriv.init : SnullPriv where
  status := 0
  ppool := none
  rxQueue := none
  txPacketlen := 0
  txPacketdata := none
  locked := false

/-- The memory before the setup. -/
def State.boot (pkts : Ptr → SnullPacket) (bufs : Ptr → Memory (BitVec 8)) : State where
  pkts := pkts
  priv _ := .init
  bufs := bufs
  allocated _ := []
  overruns := []

/-- The two devices after their setup. -/
def start (k : Kmalloc) (poolSize : ℤ) (pkts : Ptr → SnullPacket)
    (bufs : Ptr → Memory (BitVec 8)) : State :=
  let s := snullSetupPool k poolSize (.boot pkts bufs) .sn0
  snullSetupPool k poolSize s .sn1

end Snull
