import NanoCell.Snull.Pool

/-!
# The order of the received packets

A comment in `snull_enqueue_buf` says that the queue misorders packets: it is a stack, since a
packet is put in front of those that wait. The packets of a device are taken in the order of their
arrival as long as no two of them wait when one is taken, and not beyond.

## Main definitions

* `Log`: the packets that arrived in the queues, and those taken from them
* `InOrder`: packets are taken in the order of their arrival
* `OneWaits`: no two packets wait when one is taken

## Main results

* `step_queue`: the queue of a device is a stack
* `inOrder_iff`: the packets are taken in order along a run exactly when no two wait
-/

namespace Snull

open Transition

/-- The packets that were put into the queue of each device, and those taken from it, the latest
last. -/
structure Log where
  arrived : Dev → List Ptr
  taken : Dev → List Ptr

/-- Nothing has arrived. -/
def Log.empty : Log := ⟨fun _ => [], fun _ => []⟩

/-- The log after a call that returned `ret`. -/
def Log.record (log : Log) : Op → (ret : Option Ptr) → Log
  | .enqueueBuf dev pkt, _ =>
    { log with arrived := Function.update log.arrived dev (log.arrived dev ++ [pkt]) }
  | .dequeueBuf dev, ret =>
    { log with taken := Function.update log.taken dev (log.taken dev ++ ret.toList) }
  | _, _ => log

/-- A call, with its log. -/
def logStep (x : System × Log) (e : ℕ × Op) : Option (System × Log) :=
  (x.1.step e).map fun t => (t, x.2.record e.2 (exec x.1.snull e.2).2)

/-- The packets of each device were taken in the order of their arrival. -/
def InOrder (x : System × Log) : Prop := ∀ dev, x.2.taken dev <+: x.2.arrived dev

/-- When a packet is taken, it is the last one that waits. -/
def OneWaits (x : System × Log) (e : ℕ × Op) : Prop :=
  ∀ dev pkt, e.2 = .dequeueBuf dev → x.1.snull.head (.queue dev) = some pkt →
    x.1.snull.next pkt = none

/-! ## The queue as a stack -/

/-- What a call does to the queue of the device `dev`, the first packet in front. -/
def Op.queue (dev : Dev) (l : List Ptr) : Op → List Ptr
  | .enqueueBuf other pkt => if other = dev then pkt :: l else l
  | .dequeueBuf other => if other = dev then l.tail else l
  | _ => l

section Exec

variable {s : State} {dev other : Dev} {pkt : Ptr} {l : List Ptr}

theorem linked_getTxBuffer (h : Linked s.next (s.head (.queue dev)) l) :
    Linked (exec s (.getTxBuffer other)).1.next
      ((exec s (.getTxBuffer other)).1.head (.queue dev)) l := by
  cases hhead : s.head (.pool other) with
  | none => simpa [exec, snullGetTxBuffer_none hhead] using h
  | some pkt => simpa [exec, snullGetTxBuffer_some hhead] using h

theorem linked_releaseBuffer (h : Linked s.next (s.head (.queue dev)) l) (hpkt : pkt ∉ l) :
    Linked (exec s (.releaseBuffer pkt)).1.next
      ((exec s (.releaseBuffer pkt)).1.head (.queue dev)) l := by
  simpa [exec, snullReleaseBuffer, State.push] using h.update hpkt _

theorem linked_enqueueBuf (h : Linked s.next (s.head (.queue dev)) l) (hpkt : pkt ∉ l) :
    Linked (exec s (.enqueueBuf other pkt)).1.next
      ((exec s (.enqueueBuf other pkt)).1.head (.queue dev))
      (Op.queue dev l (.enqueueBuf other pkt)) := by
  rcases eq_or_ne other dev with rfl | hne
  · simpa [exec, snullEnqueueBuf, State.push, Op.queue] using h.cons hpkt
  · simpa [exec, snullEnqueueBuf, State.push, Op.queue, hne, hne.symm] using h.update hpkt _

theorem exec_dequeueBuf : (exec s (.dequeueBuf dev)).2 = s.head (.queue dev) := by
  cases hhead : s.head (.queue dev) with
  | none => simp [exec, snullDequeueBuf, hhead]
  | some pkt => simp [exec, snullDequeueBuf, hhead]

theorem linked_dequeueBuf (h : Linked s.next (s.head (.queue dev)) l) :
    Linked (exec s (.dequeueBuf other)).1.next
      ((exec s (.dequeueBuf other)).1.head (.queue dev)) (Op.queue dev l (.dequeueBuf other)) := by
  rcases eq_or_ne other dev with rfl | hne
  · cases hhead : s.head (.queue other) with
    | none =>
      rw [hhead] at h
      obtain rfl := h.unique Linked.nil
      simpa [exec, snullDequeueBuf, hhead, Op.queue] using Linked.nil
    | some pkt =>
      rw [hhead] at h
      obtain ⟨rest, rfl, hrest⟩ := h.exists_cons
      simpa [exec, snullDequeueBuf, hhead, Op.queue] using hrest
  · cases hhead : s.head (.queue other) with
    | none => simpa [exec, snullDequeueBuf, hhead, Op.queue, hne] using h
    | some pkt => simpa [exec, snullDequeueBuf, hhead, Op.queue, hne, hne.symm] using h

end Exec

/-! ## Runs -/

section Runs

variable {allocated : Dev → List Ptr} {t u : System} {lists : PacketList → List Ptr}

/-- **The queue of a device is a stack**, for every call of every caller. -/
theorem step_queue {e : ℕ × Op} (h : Placed allocated t.snull t.heldPkts lists)
    (he : t.step e = some u) :
    ∃ lists', Placed allocated u.snull u.heldPkts lists' ∧
      ∀ dev, lists' (.queue dev) = Op.queue dev (lists (.queue dev)) e.2 := by
  obtain ⟨c, op⟩ := e
  obtain ⟨lists', h'⟩ := step_placed ⟨lists, h⟩ he
  refine ⟨lists', h', ?_⟩
  intro dev
  have hold := h.shares.linked (.queue dev)
  have hnew := h'.shares.linked (.queue dev)
  rw [System.step_snull he] at hnew
  have hfree : ∀ pkt, op.arg = some pkt → pkt ∉ lists (.queue dev) := by
    intro pkt harg hpkt
    exact h.shares.not_held hpkt (System.step_arg he harg)
  cases op with
  | getTxBuffer other => exact hnew.unique (linked_getTxBuffer hold)
  | releaseBuffer pkt => exact hnew.unique (linked_releaseBuffer hold (hfree pkt rfl))
  | enqueueBuf other pkt => exact hnew.unique (linked_enqueueBuf hold (hfree pkt rfl))
  | dequeueBuf other => exact hnew.unique (linked_dequeueBuf hold)

/-- The invariant as long as no two packets wait: those that wait arrived last, the one in front the
latest. -/
def Logged (allocated : Dev → List Ptr) (x : System × Log) : Prop :=
  ∃ lists, Placed allocated x.1.snull x.1.heldPkts lists ∧
    ∀ dev, x.2.arrived dev = x.2.taken dev ++ (lists (.queue dev)).reverse

theorem Logged.inOrder {x : System × Log} (h : Logged allocated x) : InOrder x := by
  obtain ⟨lists, -, hlog⟩ := h
  intro dev
  rw [hlog dev]
  exact List.prefix_append _ _

/-- A call that takes a packet only if no other one waits. -/
theorem Logged.step {x y : System × Log} {e : ℕ × Op} (h : Logged allocated x) (hok : OneWaits x e)
    (hstep : logStep x e = some y) : Logged allocated y := by
  obtain ⟨c, op⟩ := e
  obtain ⟨lists, hplaced, hlog⟩ := h
  obtain ⟨u, hu, rfl⟩ := Option.map_eq_some_iff.mp hstep
  obtain ⟨lists', hplaced', hqueue⟩ := step_queue hplaced hu
  refine ⟨lists', hplaced', ?_⟩
  intro dev
  rw [hqueue dev]
  cases op with
  | getTxBuffer other => exact hlog dev
  | releaseBuffer pkt => exact hlog dev
  | enqueueBuf other pkt =>
    rcases eq_or_ne other dev with rfl | hne
    · simp [Log.record, Op.queue, hlog]
    · simpa [Log.record, Op.queue, hne, hne.symm] using hlog dev
  | dequeueBuf other =>
    rcases eq_or_ne other dev with rfl | hne
    · have hlinked := hplaced.shares.linked (.queue other)
      simp only [Log.record, exec_dequeueBuf, Op.queue, if_true, Function.update_self]
      cases hhead : x.1.snull.head (.queue other) with
      | none =>
        rw [hhead] at hlinked
        have hnil := hlinked.unique Linked.nil
        simpa [hnil] using hlog other
      | some pkt =>
        rw [hhead] at hlinked
        obtain ⟨rest, hrest, hlinked'⟩ := hlinked.exists_cons
        rw [hok other pkt rfl hhead] at hlinked'
        have hnil := hlinked'.unique Linked.nil
        simpa [hrest, hnil] using hlog other
    · simpa [Log.record, Op.queue, hne, hne.symm] using hlog dev

/-- A call that takes a packet from in front of another one. -/
theorem Logged.misordered {x y : System × Log} {e : ℕ × Op} (h : Logged allocated x)
    (hno : ¬ OneWaits x e) (hstep : logStep x e = some y) : ¬ InOrder y := by
  obtain ⟨c, op⟩ := e
  obtain ⟨lists, hplaced, hlog⟩ := h
  obtain ⟨u, -, rfl⟩ := Option.map_eq_some_iff.mp hstep
  unfold OneWaits at hno
  push Not at hno
  obtain ⟨dev, pkt, hop, hhead, hnext⟩ := hno
  dsimp only at hop
  subst hop
  have hlinked := hplaced.shares.linked (.queue dev)
  have hnodup := hplaced.shares.nodup (.queue dev)
  rw [hhead] at hlinked
  obtain ⟨rest, hrest, hlinked'⟩ := hlinked.exists_cons
  intro horder
  have hpre := horder dev
  simp only [Log.record, exec_dequeueBuf, hhead, Function.update_self, hlog dev, hrest,
    Option.toList_some, List.reverse_cons, List.prefix_append_right_inj] at hpre
  rw [hrest] at hnodup
  cases rest using List.reverseRecOn with
  | nil => exact hnext hlinked'
  | append_singleton others first =>
    rw [List.reverse_append, List.reverse_singleton, List.singleton_append, List.cons_append,
      List.cons_prefix_cons] at hpre
    refine (List.nodup_cons.mp hnodup).1 ?_
    rw [hpre.1]
    simp

/-- The setup leaves the queues empty. -/
theorem start_queue (k : Kmalloc) (poolSize : ℤ) (pkts : Ptr → SnullPacket)
    (bufs : Ptr → Memory (BitVec 8)) (dev : Dev) :
    (start k poolSize pkts bufs).head (.queue dev) = none := by
  have hpool : ∀ other, PacketList.queue dev ≠ .pool other := fun _ h => by cases h
  have hsetup : ∀ s other, (snullSetupPool k poolSize s other).head (.queue dev) =
      s.head (.queue dev) := by
    intro s other
    rw [snullSetupPool, setupPoolFrom_head (hpool other), State.head_setHead,
      Function.update_of_ne (hpool other)]
  rw [start, hsetup, hsetup]
  rfl

/-- **When packets are taken in order**: for every size of the pools, every outcome of the
allocations and every order of the calls of every caller, the packets of each device are taken in
the order of their arrival exactly when no two of them wait at a time when one is taken. -/
theorem inOrder_iff (k : Kmalloc) (poolSize : ℤ) (pkts : Ptr → SnullPacket)
    (bufs : Ptr → Memory (BitVec 8)) (es : List (ℕ × Op)) :
    Always logStep InOrder (⟨start k poolSize pkts bufs, []⟩, .empty) es ↔
      Along logStep OneWaits (⟨start k poolSize pkts bufs, []⟩, .empty) es := by
  refine always_iff_along (J := Logged (start k poolSize pkts bufs).allocated)
    (fun _ h => h.inOrder) (fun _ _ _ h hok hstep => h.step hok hstep)
    (fun _ _ _ h hno hstep => h.misordered hno hstep) ?_ es
  obtain ⟨lists, hlists⟩ := start_placed k poolSize pkts bufs
  refine ⟨lists, hlists, ?_⟩
  intro dev
  have hlinked := hlists.shares.linked (.queue dev)
  rw [start_queue] at hlinked
  simp [Log.empty, hlinked.unique Linked.nil]

end Runs

end Snull
