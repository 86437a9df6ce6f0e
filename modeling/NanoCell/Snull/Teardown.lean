import NanoCell.Snull.Pool

/-!
# Taking the pools down

`snull_teardown_pool` frees the packets in the pool of a device. Its comment asks about the packets
in flight: they are in a queue or with a caller at that time, and stay usable, since nothing frees
them. A device can be taken down at any point of a run, and again after packets came back to its
pool.

## Main definitions

* `snullTeardownPool`: the function
* `Module.step`: a call of an operation, or of the function
* `Safe`: the memory of the packets is used as it may be
* `LeavesInFlight`: what is not freed when both devices are taken down

## Main results

* `safe_always`: no packet is freed twice or touched after it was freed, whatever the callers do
* `leavesInFlight_always`: the packets that are not freed are exactly those in flight
-/

namespace Snull

open Transition

/-- The loop of `snull_teardown_pool`, for at most `turns` turns, with the packets given to
`kfree`. -/
def teardownFrom (dev : Dev) : (turns : ℕ) → State → List Ptr → Option (State × List Ptr)
  | 0, s, freed =>
    match s.head (.pool dev) with
    | none => some (s, freed)
    | some _ => none
  | turns + 1, s, freed =>
    match s.head (.pool dev) with
    | none => some (s, freed)
    | some pkt => teardownFrom dev turns (s.setHead (.pool dev) (s.next pkt)) (freed ++ [pkt])

/-- `snull_teardown_pool`. The source has no bound on the turns; it takes no more of them than there
are packets. -/
def snullTeardownPool (s : State) (dev : Dev) : Option (State × List Ptr) :=
  teardownFrom dev ((s.allocated .sn0).length + (s.allocated .sn1).length) s []

/-- The module with its callers, and the packets on which `kfree` was called. -/
structure Module where
  system : System
  freed : List Ptr

/-- What can be called: an operation by the caller `c`, and the function that takes a pool down. -/
inductive Event where
  | call (c : ℕ) (op : Op)
  | teardown (dev : Dev)

/-- A step of the module. -/
def Module.step (m : Module) : Event → Option Module
  | .call c op => (m.system.step (c, op)).map fun t => ⟨t, m.freed⟩
  | .teardown dev => (snullTeardownPool m.system.snull dev).map fun x =>
      ⟨⟨x.1, m.system.held⟩, m.freed ++ x.2⟩

/-- The module after its setup, with no packet handed out. -/
def Module.start (k : Kmalloc) (poolSize : ℤ) (pkts : Ptr → SnullPacket)
    (bufs : Ptr → Memory (BitVec 8)) : Module :=
  ⟨⟨Snull.start k poolSize pkts bufs, []⟩, []⟩

/-- The packet whose memory a call reads or writes. -/
def Op.touches (s : State) : Op → Option Ptr
  | .getTxBuffer dev => s.head (.pool dev)
  | .releaseBuffer pkt => some pkt
  | .enqueueBuf _ pkt => some pkt
  | .dequeueBuf dev => s.head (.queue dev)

/-! ## The loop -/

section Loop

variable {live : Dev → List Ptr} {s : State} {held : Multiset Ptr} {lists : PacketList → List Ptr}
  {dev : Dev} {pkt : Ptr}

/-- A packet in the pool of a device is one of its own. -/
theorem Placed.mem_live (h : Placed live s held lists) (hpkt : pkt ∈ lists (.pool dev)) :
    pkt ∈ live dev := by
  have hmem := List.mem_append.mp (h.shares.mem_iff.mpr (.inl ⟨_, hpkt⟩))
  have hdev := h.pool_dev dev pkt hpkt
  rcases hmem with hmem | hmem
  · rw [← hdev, h.allocated_dev _ pkt hmem]
    exact hmem
  · rw [← hdev, h.allocated_dev _ pkt hmem]
    exact hmem

theorem perm_erase (live : Dev → List Ptr) (hpkt : pkt ∈ live dev) :
    (live .sn0 ++ live .sn1).Perm
      (pkt :: (Function.update live dev ((live dev).erase pkt) .sn0 ++
        Function.update live dev ((live dev).erase pkt) .sn1)) := by
  have herase := List.perm_cons_erase hpkt
  cases dev with
  | sn0 => simpa using herase.append_right (live .sn1)
  | sn1 => simpa using (herase.append_left (live .sn0)).trans List.perm_middle

/-- A turn of the loop: the first packet of the pool is freed. -/
theorem Placed.turn (h : Placed live s held lists) (hhead : s.head (.pool dev) = some pkt) :
    ∃ rest, lists (.pool dev) = pkt :: rest ∧ pkt ∈ live dev ∧
      Placed (Function.update live dev ((live dev).erase pkt))
        (s.setHead (.pool dev) (s.next pkt)) held (Function.update lists (.pool dev) rest) := by
  obtain ⟨rest, hrest, hshares⟩ := h.shares.pop hhead
  have hpkt : pkt ∈ live dev := h.mem_live (by rw [hrest]; exact List.mem_cons_self)
  refine ⟨rest, hrest, hpkt, ?_, ?_, ?_⟩
  · have hall := Multiset.coe_eq_coe.mpr (perm_erase live hpkt)
    have hfree := hshares.free
    rw [hall, ← Multiset.cons_coe, Multiset.erase_cons_head] at hfree
    rw [State.next_setHead, State.head_setHead]
    exact hfree
  · intro d p hp
    rw [State.dev_setHead]
    apply h.pool_dev d p
    rcases eq_or_ne d dev with rfl | hne
    · rw [Function.update_self] at hp
      rw [hrest]
      exact List.mem_cons_of_mem _ hp
    · rwa [Function.update_of_ne fun heq => hne (PacketList.pool.inj heq)] at hp
  · intro d p hp
    rw [State.dev_setHead]
    apply h.allocated_dev d p
    rcases eq_or_ne d dev with rfl | hne
    · rw [Function.update_self] at hp
      exact List.mem_of_mem_erase hp
    · rwa [Function.update_of_ne hne] at hp

/-- **The loop** frees the packets of the pool, in their order, and ends with an empty pool. -/
theorem teardownFrom_spec (turns : ℕ) (h : Placed live s held lists)
    (hturns : (lists (.pool dev)).length ≤ turns) (freed : List Ptr) :
    ∃ s' live', teardownFrom dev turns s freed = some (s', freed ++ lists (.pool dev)) ∧
      Placed live' s' held (Function.update lists (.pool dev) []) ∧
      (live .sn0 ++ live .sn1).Perm (live' .sn0 ++ live' .sn1 ++ lists (.pool dev)) ∧
      s'.head = Function.update s.head (.pool dev) none ∧ s'.next = s.next ∧
      s'.allocated = s.allocated := by
  induction turns generalizing s live lists freed with
  | zero =>
    have hnil : lists (.pool dev) = [] := List.length_eq_zero_iff.mp (Nat.le_zero.mp hturns)
    have hhead : s.head (.pool dev) = none := by
      have := h.shares.linked (.pool dev)
      rwa [hnil] at this
    refine ⟨s, live, by simp [teardownFrom, hhead, hnil], ?_, by simp [hnil], ?_, rfl, rfl⟩
    · rwa [← hnil, Function.update_eq_self]
    · rw [← hhead, Function.update_eq_self]
  | succ turns ih =>
    cases hhead : s.head (.pool dev) with
    | none =>
      have hnil : lists (.pool dev) = [] := by
        have := h.shares.linked (.pool dev)
        rw [hhead] at this
        exact this.unique Linked.nil
      refine ⟨s, live, by simp [teardownFrom, hhead, hnil], ?_, by simp [hnil], ?_, rfl, rfl⟩
      · rwa [← hnil, Function.update_eq_self]
      · rw [← hhead, Function.update_eq_self]
    | some pkt =>
      obtain ⟨rest, hrest, hpkt, hplaced⟩ := h.turn hhead
      obtain ⟨s', live', he, hplaced', hperm, hhead', hnext, hall⟩ := ih hplaced
        (by rw [Function.update_self]; rw [hrest, List.length_cons] at hturns; omega)
        (freed ++ [pkt])
      rw [Function.update_self] at he hperm
      rw [Function.update_idem] at hplaced'
      rw [State.head_setHead, Function.update_idem] at hhead'
      refine ⟨s', live', ?_, hplaced', ?_, hhead', ?_, ?_⟩
      · simp only [teardownFrom, hhead]
        rw [he, hrest, List.append_assoc, List.singleton_append]
      · rw [hrest]
        exact ((perm_erase live hpkt).trans (hperm.cons pkt)).trans List.perm_middle.symm
      · rw [hnext, State.next_setHead]
      · rw [hall, State.allocated_setHead]

end Loop

/-! ## Runs -/

/-- The memory of the packets is used as it may be. -/
structure Safe (allocated : Dev → List Ptr) (m : Module) : Prop where
  /-- A packet is freed once. -/
  nodup : m.freed.Nodup
  allocated : ∀ pkt ∈ m.freed, ∃ dev, pkt ∈ allocated dev
  /-- No caller has a freed packet. -/
  held : ∀ pkt ∈ m.system.heldPkts, pkt ∉ m.freed
  /-- No call touches the memory of one. -/
  calls : ∀ c op, m.step (.call c op) ≠ none → ∀ pkt, op.touches m.system.snull = some pkt →
    pkt ∉ m.freed
  /-- Taking a device down ends, and frees the packets in its pool and no others. -/
  teardown : ∀ dev, ∃ m' l, m.step (.teardown dev) = some m' ∧ m'.freed = m.freed ++ l ∧
    Linked m.system.snull.next (m.system.snull.head (.pool dev)) l ∧
    m'.system.snull.head = Function.update m.system.snull.head (.pool dev) none ∧
    m'.system.held = m.system.held

/-- When both devices are taken down, the packets that are not freed are those in the queues and
with the callers. -/
def LeavesInFlight (allocated : Dev → List Ptr) (m : Module) : Prop :=
  ∃ (m' : Module) (queued : Dev → List Ptr),
    run Module.step m [.teardown .sn0, .teardown .sn1] = some m' ∧
    (∀ dev, Linked m.system.snull.next (m.system.snull.head (.queue dev)) (queued dev)) ∧
    (m'.freed ++ (queued .sn0 ++ queued .sn1 ++ m.system.heldPkts)).Perm
      (allocated .sn0 ++ allocated .sn1)

/-- The invariant: the packets that are `live` are in their places, and the others were freed. -/
structure Kept (allocated : Dev → List Ptr) (m : Module) (live : Dev → List Ptr)
    (lists : PacketList → List Ptr) : Prop where
  placed : Placed live m.system.snull m.system.heldPkts lists
  perm : (live .sn0 ++ live .sn1 ++ m.freed).Perm (allocated .sn0 ++ allocated .sn1)
  nodup : (allocated .sn0 ++ allocated .sn1).Nodup
  alloc : m.system.snull.allocated = allocated

section Runs

variable {allocated : Dev → List Ptr} {m m' : Module} {live : Dev → List Ptr}
  {lists : PacketList → List Ptr} {pkt : Ptr}

theorem Kept.not_freed (h : Kept allocated m live lists) (hpkt : pkt ∈ live .sn0 ++ live .sn1) :
    pkt ∉ m.freed := by
  have hnodup := h.perm.nodup_iff.mpr h.nodup
  intro hfreed
  exact List.disjoint_of_nodup_append hnodup hpkt hfreed

/-- **Taking a device down** frees the packets in its pool. -/
theorem Kept.teardown (h : Kept allocated m live lists) (dev : Dev) :
    ∃ m' live', m.step (.teardown dev) = some m' ∧
      Kept allocated m' live' (Function.update lists (.pool dev) []) ∧
      m'.freed = m.freed ++ lists (.pool dev) ∧
      m'.system.snull.head = Function.update m.system.snull.head (.pool dev) none ∧
      m'.system.held = m.system.held := by
  have hlen : (lists (.pool dev)).length ≤
      (m.system.snull.allocated .sn0).length + (m.system.snull.allocated .sn1).length := by
    have hpool := h.placed.shares.length_le (.pool dev)
    have hall := h.perm.length_eq
    rw [h.alloc]
    simp only [List.length_append, Multiset.coe_card] at hpool hall
    omega
  obtain ⟨s', live', he, hplaced, hperm, hhead, -, hall⟩ :=
    teardownFrom_spec _ h.placed hlen []
  refine ⟨⟨⟨s', m.system.held⟩, m.freed ++ lists (.pool dev)⟩, live', ?_, ⟨hplaced, ?_, h.nodup,
    hall.trans h.alloc⟩, rfl, hhead, rfl⟩
  · simp only [Module.step, snullTeardownPool, he, Option.map_some, List.nil_append]
  · refine List.Perm.trans ?_ ((hperm.symm.append_right m.freed).trans h.perm)
    rw [List.append_assoc _ (lists (.pool dev))]
    exact List.perm_append_comm.append_left _

/-- **A step** keeps the invariant. -/
theorem Kept.step {e : Event} (h : Kept allocated m live lists) (he : m.step e = some m') :
    ∃ live' lists', Kept allocated m' live' lists' := by
  cases e with
  | call c op =>
    obtain ⟨t, ht, rfl⟩ := Option.map_eq_some_iff.mp he
    obtain ⟨lists', hlists'⟩ := step_placed ⟨lists, h.placed⟩ ht
    refine ⟨live, lists', hlists', h.perm, h.nodup, ?_⟩
    dsimp only
    rw [System.step_snull ht, exec_keeps.2, h.alloc]
  | teardown dev =>
    obtain ⟨m'', live', he', hkept, -⟩ := h.teardown dev
    rw [he] at he'
    cases he'
    exact ⟨live', _, hkept⟩

theorem Kept.safe (h : Kept allocated m live lists) : Safe allocated m := by
  have hnodup := h.perm.nodup_iff.mpr h.nodup
  have hheld : ∀ pkt ∈ m.system.heldPkts, pkt ∉ m.freed := by
    intro pkt hpkt
    exact h.not_freed (h.placed.shares.mem_iff.mpr (.inr hpkt))
  have hhead : ∀ i pkt, m.system.snull.head i = some pkt → pkt ∉ m.freed := by
    intro i pkt hi
    obtain ⟨rest, hrest, -⟩ := h.placed.shares.pop hi
    exact h.not_freed (h.placed.shares.mem_iff.mpr (.inl ⟨i, by rw [hrest]; exact .head _⟩))
  have harg : ∀ c op, m.step (.call c op) ≠ none → ∀ pkt, op.arg = some pkt → pkt ∉ m.freed := by
    intro c op hstep pkt hop
    obtain ⟨m', hm'⟩ := Option.ne_none_iff_exists'.mp hstep
    obtain ⟨t, ht, -⟩ := Option.map_eq_some_iff.mp hm'
    exact hheld pkt (System.step_arg ht hop)
  refine ⟨(List.nodup_append.mp hnodup).2.1, ?_, hheld, ?_, ?_⟩
  · intro pkt hpkt
    have hmem := h.perm.subset (List.mem_append_right _ hpkt)
    rcases List.mem_append.mp hmem with hmem | hmem
    · exact ⟨_, hmem⟩
    · exact ⟨_, hmem⟩
  · intro c op hstep pkt htouch
    cases op with
    | getTxBuffer dev => exact hhead (.pool dev) pkt htouch
    | dequeueBuf dev => exact hhead (.queue dev) pkt htouch
    | releaseBuffer p => exact harg c _ hstep pkt htouch
    | enqueueBuf dev p => exact harg c _ hstep pkt htouch
  · intro dev
    obtain ⟨m', live', he, -, hfreed, hhead', hheld'⟩ := h.teardown dev
    exact ⟨m', _, he, hfreed, h.placed.shares.linked _, hhead', hheld'⟩

theorem Kept.leavesInFlight (h : Kept allocated m live lists) : LeavesInFlight allocated m := by
  obtain ⟨m₁, live₁, he₁, h₁, -, -, hheld₁⟩ := h.teardown .sn0
  obtain ⟨m₂, live₂, he₂, h₂, -, -, hheld₂⟩ := h₁.teardown .sn1
  refine ⟨m₂, fun dev => lists (.queue dev), ?_, fun dev => h.placed.shares.linked _, ?_⟩
  · rw [run_cons he₁, run_cons he₂, run_nil]
  · have hsum := h₂.placed.shares.sum_eq
    have hheld : m₂.system.heldPkts = m.system.heldPkts := by
      rw [System.heldPkts, hheld₂, hheld₁, System.heldPkts]
    rw [sum_packetLists, hheld] at hsum
    simp only [Function.update_apply, reduceCtorEq, PacketList.pool.injEq, if_true,
      if_false] at hsum
    have hlive : (lists (.queue .sn0) ++ lists (.queue .sn1) ++ m.system.heldPkts).Perm
        (live₂ .sn0 ++ live₂ .sn1) := by
      apply Multiset.coe_eq_coe.mp
      rw [← hsum]
      simp
    exact (List.perm_append_comm.trans (hlive.append_right _)).trans h₂.perm

theorem Module.start_kept (k : Kmalloc) (poolSize : ℤ) (pkts : Ptr → SnullPacket)
    (bufs : Ptr → Memory (BitVec 8)) :
    ∃ live lists, Kept (Snull.start k poolSize pkts bufs).allocated
      (.start k poolSize pkts bufs) live lists := by
  obtain ⟨lists, hlists⟩ := start_placed k poolSize pkts bufs
  refine ⟨_, lists, hlists, ?_, Multiset.coe_nodup.mp hlists.shares.all_nodup, rfl⟩
  exact List.Perm.of_eq (List.append_nil _)

theorem kept_always (k : Kmalloc) (poolSize : ℤ) (pkts : Ptr → SnullPacket)
    (bufs : Ptr → Memory (BitVec 8)) (es : List Event) :
    Always Module.step
      (fun m => ∃ live lists, Kept (start k poolSize pkts bufs).allocated m live lists)
      (.start k poolSize pkts bufs) es :=
  always_of_step (I := fun m => ∃ live lists,
      Kept (start k poolSize pkts bufs).allocated m live lists)
    (fun _ _ _ ⟨_, _, hm⟩ he => hm.step he) (Module.start_kept k poolSize pkts bufs) es

/-- **No packet is freed twice or touched after it was freed**: for every size of the pools, every
outcome of the allocations, and every order of the calls of every caller with devices taken down in
between; and taking a device down always ends. -/
theorem safe_always (k : Kmalloc) (poolSize : ℤ) (pkts : Ptr → SnullPacket)
    (bufs : Ptr → Memory (BitVec 8)) (es : List Event) :
    Always Module.step (Safe (start k poolSize pkts bufs).allocated)
      (.start k poolSize pkts bufs) es := by
  exact (kept_always k poolSize pkts bufs es).mono fun _ ⟨_, _, hm⟩ => hm.safe

/-- **What the end of the module leaks**: at any point of a run, taking both devices down frees all
packets but those in flight. -/
theorem leavesInFlight_always (k : Kmalloc) (poolSize : ℤ) (pkts : Ptr → SnullPacket)
    (bufs : Ptr → Memory (BitVec 8)) (es : List Event) :
    Always Module.step (LeavesInFlight (start k poolSize pkts bufs).allocated)
      (.start k poolSize pkts bufs) es := by
  exact (kept_always k poolSize pkts bufs es).mono fun _ ⟨_, _, hm⟩ => hm.leavesInFlight

end Runs

end Snull
