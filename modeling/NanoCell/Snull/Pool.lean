import NanoCell.Lib.Transition
import NanoCell.Snull.Driver

/-!
# Packets are conserved

Callers take packets from the pool of a device or from a queue, hold them, and put them into the
queue of either device or give them back. Whatever the callers do, in whatever order, every packet
that was allocated is in one place: in the pool of its own device, in one of the queues, or held by
one caller.

## Main definitions

* `System`: the module and the packets that its callers hold
* `step`: a caller's call, with a packet that it holds if the call takes one
* `Conserved`: every allocated packet is in one place

## Main results

* `step_placed`: a call keeps the packets in their places
* `start_placed`: the setup puts every packet it allocates into the pool
* `always_conserved`: the packets are conserved along every run
-/

namespace Snull

open Transition

/-! ## Callers -/

/-- The module, and the packets that the callers hold, each with its caller. -/
structure System where
  snull : State
  held : List (ℕ × Ptr)

namespace System

/-- The packets that are held. -/
def heldPkts (t : System) : List Ptr := t.held.map Prod.snd

/-- A call `op` by the caller `c`. A packet that is handed to the call must be held by the caller,
who holds the one that the call returns. -/
def step (t : System) : ℕ × Op → Option System
  | (c, op) =>
    match op.arg with
    | some pkt =>
      if (c, pkt) ∈ t.held then some ⟨(exec t.snull op).1, t.held.erase (c, pkt)⟩ else none
    | none => some ⟨(exec t.snull op).1, ((exec t.snull op).2.map (c, ·)).toList ++ t.held⟩

theorem step_snull {t u : System} {c : ℕ} {op : Op} (he : t.step (c, op) = some u) :
    u.snull = (exec t.snull op).1 := by
  cases harg : op.arg with
  | none =>
    simp only [System.step, harg, Option.some.injEq] at he
    exact he ▸ rfl
  | some pkt =>
    simp only [System.step, harg] at he
    split_ifs at he
    cases he
    rfl

/-- A packet that is handed to a call is held. -/
theorem step_arg {t u : System} {c : ℕ} {op : Op} {pkt : Ptr} (he : t.step (c, op) = some u)
    (harg : op.arg = some pkt) : pkt ∈ t.heldPkts := by
  simp only [step, harg] at he
  split_ifs at he with hmem
  exact List.mem_map.mpr ⟨_, hmem, rfl⟩

end System

/-! ## The places of the packets -/

/-- Every allocated packet is in one place, given the packets on each list. -/
structure Conserved (allocated : Dev → List Ptr) (t : System) (lists : PacketList → List Ptr) :
    Prop where
  /-- The lists end, so they have no cycle. -/
  linked : ∀ i, Linked t.snull.next (t.snull.head i) (lists i)
  nodup : ∀ i, (lists i).Nodup
  disjoint : ∀ i j, i ≠ j → (lists i).Disjoint (lists j)
  /-- A held packet is on no list. -/
  not_held : ∀ i, (lists i).Disjoint t.heldPkts
  held_nodup : t.heldPkts.Nodup
  allocated_iff : ∀ pkt, (∃ dev, pkt ∈ allocated dev) ↔
    (∃ i, pkt ∈ lists i) ∨ ∃ c, (c, pkt) ∈ t.held
  pool_dev : ∀ dev, ∀ pkt ∈ lists (.pool dev), t.snull.dev pkt = dev
  count : ∀ dev, (lists (.pool dev)).length +
    (lists (.queue .sn0) ++ lists (.queue .sn1) ++ t.heldPkts).countP (t.snull.dev · = dev) =
      (allocated dev).length

/-- The invariant behind `Conserved`. -/
structure Placed (allocated : Dev → List Ptr) (s : State) (held : Multiset Ptr)
    (lists : PacketList → List Ptr) : Prop where
  shares : Shares s.next s.head lists held (allocated .sn0 ++ allocated .sn1 : List Ptr)
  pool_dev : ∀ dev, ∀ pkt ∈ lists (.pool dev), s.dev pkt = dev
  allocated_dev : ∀ dev, ∀ pkt ∈ allocated dev, s.dev pkt = dev

section Places

variable {allocated : Dev → List Ptr} {s : State} {held : Multiset Ptr}
  {lists : PacketList → List Ptr} {op : Op} {pkt : Ptr}

/-- A call that returns a packet, or none, keeps the places. -/
theorem Placed.take (h : Placed allocated s held lists) (hop : op.arg = none) :
    ∃ lists', Placed allocated (exec s op).1 ((exec s op).2.toList + held) lists' := by
  have hdev : (exec s op).1.dev = s.dev := exec_keeps.1
  rcases exec_take (s := s) hop with ⟨hret, hhead, hnext⟩ | ⟨i, pkt, hi, hret, hhead, hnext⟩
  · refine ⟨lists, ?_, hdev ▸ h.pool_dev, hdev ▸ h.allocated_dev⟩
    simpa [hret, hhead, hnext] using h.shares
  · obtain ⟨rest, hrest, hshares⟩ := h.shares.pop hi
    refine ⟨Function.update lists i rest, ?_, ?_, hdev ▸ h.allocated_dev⟩
    · simpa [hret, hhead, hnext] using hshares
    · intro dev p hp
      rw [hdev]
      apply h.pool_dev dev p
      rcases eq_or_ne (.pool dev) i with rfl | hne
      · rw [Function.update_self] at hp
        simp [hrest, hp]
      · rwa [Function.update_of_ne hne] at hp

/-- A call with a held packet keeps the places. -/
theorem Placed.give (h : Placed allocated s (pkt ::ₘ held) lists) (hop : op.arg = some pkt) :
    ∃ lists', Placed allocated (exec s op).1 held lists' := by
  have hdev : (exec s op).1.dev = s.dev := exec_keeps.1
  obtain ⟨i, hi, hhead, hnext⟩ := exec_give (s := s) hop
  refine ⟨Function.update lists i (pkt :: lists i), ?_, ?_, hdev ▸ h.allocated_dev⟩
  · rw [hhead, hnext]
    exact h.shares.push i
  · intro dev p hp
    rw [hdev]
    rcases eq_or_ne (.pool dev) i with rfl | hne
    · rw [Function.update_self] at hp
      rcases List.mem_cons.mp hp with rfl | hp
      · exact hi dev rfl
      · exact h.pool_dev dev p hp
    · rw [Function.update_of_ne hne] at hp
      exact h.pool_dev dev p hp

theorem sum_packetLists (f : PacketList → Multiset Ptr) :
    ∑ i, f i = f (.pool .sn0) + f (.pool .sn1) + (f (.queue .sn0) + f (.queue .sn1)) := by
  simp [Finset.univ, Fintype.elems, add_assoc]

theorem Dev.exists_iff {P : Dev → Prop} : (∃ dev, P dev) ↔ P .sn0 ∨ P .sn1 := by
  constructor
  · rintro ⟨dev, h⟩
    cases dev
    · exact .inl h
    · exact .inr h
  · rintro (h | h)
    · exact ⟨_, h⟩
    · exact ⟨_, h⟩

/-- The packets on a list of packets of one device that belong to a device. -/
theorem countP_dev {s : State} {l : List Ptr} {dev : Dev} (hl : ∀ pkt ∈ l, s.dev pkt = dev)
    (other : Dev) : l.countP (s.dev · = other) = if dev = other then l.length else 0 := by
  split_ifs with heq
  · rw [List.countP_eq_length]
    intro pkt hpkt
    simp [hl pkt hpkt, heq]
  · rw [List.countP_eq_zero]
    intro pkt hpkt
    simp [hl pkt hpkt, heq]

/-- The packets of a device: those in its pool, those in the queues and those held. -/
theorem Placed.count_dev {l : List Ptr} (h : Placed allocated s l lists) (dev : Dev) :
    (lists (.pool dev)).length +
      (lists (.queue .sn0) ++ lists (.queue .sn1) ++ l).countP (s.dev · = dev) =
        (allocated dev).length := by
  have hsum := congrArg (Multiset.countP (s.dev · = dev)) h.shares.sum_eq
  rw [sum_packetLists] at hsum
  simp only [Multiset.countP_add, Multiset.coe_countP, List.countP_append,
    countP_dev (h.pool_dev _), countP_dev (h.allocated_dev _)] at hsum ⊢
  cases dev <;> simp at hsum ⊢ <;> omega

theorem Placed.conserved {t : System} (h : Placed allocated t.snull t.heldPkts lists) :
    Conserved allocated t lists := by
  refine ⟨h.shares.linked, h.shares.nodup, fun i j => h.shares.disjoint, ?_, ?_, ?_, h.pool_dev, ?_⟩
  · intro i pkt hpkt hheld
    exact h.shares.not_held hpkt hheld
  · exact Multiset.coe_nodup.mp h.shares.held_nodup
  · intro pkt
    have hmem := h.shares.mem_iff (a := pkt)
    simpa [Dev.exists_iff, System.heldPkts] using hmem
  · intro dev
    exact h.count_dev dev

end Places

/-! ## The setup -/

section Setup

variable {s : State} {lists : PacketList → List Ptr} {k : Kmalloc} {dev : Dev} {pkt : Ptr}

/-- The devices of the packets on lists by device, one of which a new packet is put on. -/
theorem dev_grown {f : Dev → List Ptr} (hf : ∀ d, ∀ p ∈ f d, s.dev p = d)
    (hfresh : ∀ d, pkt ∉ f d) :
    ∀ d, ∀ p ∈ Function.update f dev (pkt :: f dev) d, Function.update s.dev pkt dev p = d := by
  intro d p hp
  have hold : ∀ p ∈ f d, Function.update s.dev pkt dev p = d := by
    intro p hp
    rw [Function.update_of_ne (ne_of_mem_of_not_mem hp (hfresh d)), hf d p hp]
  rcases eq_or_ne d dev with rfl | hne
  · rw [Function.update_self] at hp
    rcases List.mem_cons.mp hp with rfl | hp
    · exact Function.update_self ..
    · exact hold p hp
  · rw [Function.update_of_ne hne] at hp
    exact hold p hp

/-- A new packet is put into the pool. -/
theorem addPacket_placed (h : Placed s.allocated s 0 lists)
    (hfresh : pkt ∉ s.allocated .sn0 ++ s.allocated .sn1) :
    ∃ lists', Placed (s.addPacket dev pkt).allocated (s.addPacket dev pkt) 0 lists' := by
  refine ⟨Function.update lists (.pool dev) (pkt :: lists (.pool dev)), ?_, ?_, ?_⟩
  · have hall : (pkt ::ₘ (s.allocated .sn0 ++ s.allocated .sn1 : List Ptr) : Multiset Ptr) =
        ((s.addPacket dev pkt).allocated .sn0 ++ (s.addPacket dev pkt).allocated .sn1 :
          List Ptr) := by
      rw [State.allocated_addPacket]
      cases dev
      · simp
      · simp [List.perm_middle.symm]
    rw [← hall, State.next_addPacket, State.head_addPacket]
    exact (h.shares.alloc hfresh).push _
  · have hpool : ∀ d, pkt ∉ lists (.pool d) := by
      intro d hpkt
      exact hfresh (h.shares.mem_iff.mpr (.inl ⟨_, hpkt⟩))
    intro d
    rw [State.dev_addPacket, ← Function.comp_apply (f := Function.update lists _ _),
      Function.update_comp_eq_of_injective _ (fun _ _ => PacketList.pool.inj)]
    exact dev_grown h.pool_dev hpool d
  · have hallocated : ∀ d, pkt ∉ s.allocated d := by
      intro d hpkt
      apply hfresh
      cases d <;> simp [hpkt]
    rw [State.dev_addPacket, State.allocated_addPacket]
    exact dev_grown h.allocated_dev hallocated

theorem setupPoolFrom_placed (turns : ℕ) (h : ∃ lists, Placed s.allocated s 0 lists) :
    ∃ lists, Placed (setupPoolFrom k dev turns s).allocated (setupPoolFrom k dev turns s) 0
      lists := by
  apply setupPoolFrom_induct (P := fun s => ∃ lists, Placed s.allocated s 0 lists) _ turns h
  rintro s pkt ⟨lists, hlists⟩ hfresh
  exact addPacket_placed hlists hfresh

/-- The setup of a device leaves the lists of the other device alone. -/
theorem setupPoolFrom_head {i : PacketList} (hi : i ≠ .pool dev) (turns : ℕ) :
    (setupPoolFrom k dev turns s).head i = s.head i := by
  apply setupPoolFrom_induct (P := fun t => t.head i = s.head i) _ turns rfl
  intro t pkt ht _
  rw [State.head_addPacket, Function.update_of_ne hi, ht]

theorem snullSetupPool_placed (poolSize : ℤ) (h : ∃ lists, Placed s.allocated s 0 lists)
    (hempty : s.head (.pool dev) = none) :
    ∃ lists, Placed (snullSetupPool k poolSize s dev).allocated (snullSetupPool k poolSize s dev) 0
      lists := by
  apply setupPoolFrom_placed
  obtain ⟨lists, hlists⟩ := h
  have hhead : (s.setHead (.pool dev) none).head = s.head := by
    rw [State.head_setHead, ← hempty, Function.update_eq_self]
  refine ⟨lists, ?_, ?_, ?_⟩
  · rw [hhead, State.next_setHead, State.allocated_setHead]
    exact hlists.shares
  · rw [State.dev_setHead]
    exact hlists.pool_dev
  · rw [State.dev_setHead, State.allocated_setHead]
    exact hlists.allocated_dev

/-- The setup puts every packet that it allocates into the pool of its device. -/
theorem start_placed (k : Kmalloc) (poolSize : ℤ) (pkts : Ptr → SnullPacket)
    (bufs : Ptr → Memory (BitVec 8)) :
    ∃ lists, Placed (start k poolSize pkts bufs).allocated (start k poolSize pkts bufs) 0
      lists := by
  have hboot : Placed (State.boot pkts bufs).allocated (State.boot pkts bufs) 0 fun _ => [] := by
    refine ⟨⟨?_, ?_, ?_⟩, ?_, ?_⟩
    · intro i
      cases i <;> exact Linked.nil
    all_goals simp [State.boot]
  apply snullSetupPool_placed
  · exact snullSetupPool_placed poolSize ⟨_, hboot⟩ rfl
  · rw [snullSetupPool, setupPoolFrom_head (by decide)]
    rfl

end Setup

/-! ## Runs -/

section Runs

variable {allocated : Dev → List Ptr} {t u : System}

/-- **A call** keeps every packet in one place. -/
theorem step_placed {e : ℕ × Op} (h : ∃ lists, Placed allocated t.snull t.heldPkts lists)
    (he : t.step e = some u) : ∃ lists, Placed allocated u.snull u.heldPkts lists := by
  obtain ⟨c, op⟩ := e
  obtain ⟨lists, hlists⟩ := h
  cases harg : op.arg with
  | none =>
    simp only [System.step, harg, Option.some.injEq] at he
    subst he
    have hheld : ((exec t.snull op).2.toList + t.heldPkts : Multiset Ptr) =
        (System.mk (exec t.snull op).1
          (((exec t.snull op).2.map (c, ·)).toList ++ t.held)).heldPkts := by
      cases (exec t.snull op).2 <;> simp [System.heldPkts]
    rw [← hheld]
    exact hlists.take harg
  | some pkt =>
    simp only [System.step, harg] at he
    split_ifs at he with hmem
    cases he
    have hheld : (t.heldPkts : Multiset Ptr) =
        pkt ::ₘ ((t.held.erase (c, pkt)).map Prod.snd : List Ptr) := by
      exact Multiset.coe_eq_coe.mpr ((List.perm_cons_erase hmem).map Prod.snd)
    rw [hheld] at hlists
    exact hlists.give harg

/-- **Packets are conserved**: for every size of the pools, every outcome of the allocations and
every order of the calls of every caller, each allocated packet is in one place, and those of a
device add up to the number that its setup allocated. -/
theorem always_conserved (k : Kmalloc) (poolSize : ℤ) (pkts : Ptr → SnullPacket)
    (bufs : Ptr → Memory (BitVec 8)) (es : List (ℕ × Op)) :
    Always System.step
      (fun t => ∃ lists, Conserved (start k poolSize pkts bufs).allocated t lists)
      ⟨start k poolSize pkts bufs, []⟩ es := by
  have hplaced : Always System.step
      (fun t => ∃ lists, Placed (start k poolSize pkts bufs).allocated t.snull t.heldPkts lists)
      ⟨start k poolSize pkts bufs, []⟩ es :=
    always_of_step (fun t e u h he => step_placed h he) (start_placed k poolSize pkts bufs) es
  apply hplaced.mono
  rintro t ⟨lists, hlists⟩
  exact ⟨lists, hlists.conserved⟩

end Runs

end Snull
