import NanoCell.Lib.Transition
import NanoCell.Snull.Driver

/-!
# The lock of a device

Each of the four operations takes the lock of a device and gives it back before it returns, with one
exception: `snull_get_tx_buffer` returns from its empty pool with the lock held. From then on every
operation on the device spins forever.

## Main definitions

* `lockStep`: a call, which does not get past a lock that is held
* `LocksFree`: no lock is held, and no call spins

## Main results

* `exec_locked`, `exec_locked_of_empty`: a call gives the lock back, but for one case
* `locksFree_iff`: the locks are free along a run exactly when no buffer is asked for while the pool
  is empty
-/

namespace Snull

open Transition

/-- Whether the lock of a device is held. -/
def State.locked (s : State) (dev : Dev) : Bool := (s.priv dev).locked

/-- A call spins as long as the lock is held: it is disabled then. -/
def lockStep (s : State) (op : Op) : Option State :=
  if s.locked (op.device s) = true then none else some (exec s op).1

/-- Neither lock is held, and no call spins. -/
structure LocksFree (s : State) : Prop where
  free : ∀ dev, s.locked dev = false
  enabled : ∀ op, lockStep s op ≠ none

/-- A buffer is asked for only while there is one in the pool. -/
def PoolFilled (s : State) (op : Op) : Prop :=
  ∀ dev, op = .getTxBuffer dev → s.head (.pool dev) ≠ none

namespace State

variable {s : State} {i : PacketList} {device : Dev} {pkt : Ptr} {p : Option Ptr}

@[simp] theorem locked_setHead : (s.setHead i p).locked = s.locked := by
  funext other
  rcases i with device | device <;> rcases eq_or_ne other device with rfl | hne
  · simp [locked, setHead]
  · simp [locked, setHead, priv_setPriv_of_ne hne]
  · simp [locked, setHead]
  · simp [locked, setHead, priv_setPriv_of_ne hne]

@[simp] theorem locked_setNext : (s.setNext pkt p).locked = s.locked := rfl

@[simp] theorem locked_setDev : (s.setDev pkt device).locked = s.locked := rfl

@[simp] theorem locked_spinLock :
    (s.spinLock device).locked = Function.update s.locked device true := by
  funext other
  rcases eq_or_ne other device with rfl | hne
  · simp [locked, spinLock]
  · simp [locked, spinLock, priv_setPriv_of_ne hne, hne]

@[simp] theorem locked_spinUnlock :
    (s.spinUnlock device).locked = Function.update s.locked device false := by
  funext other
  rcases eq_or_ne other device with rfl | hne
  · simp [locked, spinUnlock]
  · simp [locked, spinUnlock, priv_setPriv_of_ne hne, hne]

end State

/-! ## The locks after a call -/

section Exec

variable {s : State} {op : Op}

/-- A call with a filled pool gives the lock back. -/
theorem exec_locked (h : PoolFilled s op) :
    (exec s op).1.locked = Function.update s.locked (op.device s) false := by
  rcases exec_cases s op with ⟨dev, rfl, hempty, -⟩ | ⟨dev, rfl, he⟩ | ⟨i, pkt, -, hdev, -, he⟩ |
    ⟨i, pkt, -, hdev, -, he⟩
  · exact absurd hempty (h dev rfl)
  · simp [he, Op.device]
  · simp [he, hdev]
  · simp [he, hdev, State.push]

/-- A call on an empty pool keeps the lock. -/
theorem exec_locked_of_empty {dev : Dev} (h : s.head (.pool dev) = none) :
    (exec s (.getTxBuffer dev)).1.locked dev = true := by
  simp [exec, snullGetTxBuffer_none h]

end Exec

/-! ## The setup -/

theorem setupPoolFrom_locked (k : Kmalloc) (dev : Dev) (turns : ℕ) (s : State) :
    (setupPoolFrom k dev turns s).locked = s.locked := by
  apply setupPoolFrom_induct (P := fun t => t.locked = s.locked) _ turns rfl
  intro t pkt ht _
  rw [← ht, State.addPacket, State.push, State.locked_setHead, State.locked_setNext,
    State.locked_setDev]
  rfl

theorem start_locked (k : Kmalloc) (poolSize : ℤ) (pkts : Ptr → SnullPacket)
    (bufs : Ptr → Memory (BitVec 8)) (dev : Dev) :
    (start k poolSize pkts bufs).locked dev = false := by
  rw [start, snullSetupPool, setupPoolFrom_locked, State.locked_setHead, snullSetupPool,
    setupPoolFrom_locked, State.locked_setHead]
  rfl

/-! ## Runs -/

theorem locksFree_of_free {s : State} (h : ∀ dev, s.locked dev = false) : LocksFree s := by
  refine ⟨h, ?_⟩
  intro op
  simp [lockStep, h]

/-- **The locks are given back** along a run exactly when no buffer is asked for while the pool of
the device is empty. -/
theorem locksFree_iff (k : Kmalloc) (poolSize : ℤ) (pkts : Ptr → SnullPacket)
    (bufs : Ptr → Memory (BitVec 8)) (ops : List Op) :
    Always lockStep LocksFree (start k poolSize pkts bufs) ops ↔
      Along lockStep PoolFilled (start k poolSize pkts bufs) ops := by
  have hexec : ∀ s op t, lockStep s op = some t → t = (exec s op).1 := by
    intro s op t hstep
    unfold lockStep at hstep
    split_ifs at hstep
    exact (Option.some.inj hstep).symm
  apply always_iff_along (J := LocksFree) (fun s h => h)
  · intro s op t hs hok hstep
    apply locksFree_of_free
    intro dev
    rw [hexec s op t hstep, exec_locked hok]
    rcases eq_or_ne dev (op.device s) with rfl | hne
    · rw [Function.update_self]
    · rw [Function.update_of_ne hne, hs.free]
  · intro s op t hs hno hstep hfree
    -- the one call that is not covered by the condition is on an empty pool
    unfold PoolFilled at hno
    push Not at hno
    obtain ⟨dev, rfl, hempty⟩ := hno
    have hlocked := exec_locked_of_empty hempty
    rw [← hexec s _ t hstep, hfree.free dev] at hlocked
    cases hlocked
  · exact locksFree_of_free (start_locked k poolSize pkts bufs)

/-- Nine buffers are asked for with the default `pool_size` of 8, and none is given back. -/
theorem ninth_keeps_lock :
    ¬ Always lockStep LocksFree
      (start kmallocNext 8 (fun _ => ⟨none, .sn0, 0, fun _ => 0⟩) fun _ _ => 0)
      (List.replicate 9 (.getTxBuffer .sn0)) := by
  intro h
  have hlast : (run lockStep
      (start kmallocNext 8 (fun _ => ⟨none, .sn0, 0, fun _ => 0⟩) fun _ _ => 0)
      (List.replicate 9 (.getTxBuffer .sn0))).any (·.locked .sn0) = true := by
    decide +kernel
  obtain ⟨t, ht, hlocked⟩ := (Option.any_eq_true _ _).mp hlast
  rw [(h.of_run ht).free] at hlocked
  cases hlocked

end Snull
