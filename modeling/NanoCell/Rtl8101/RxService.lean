import NanoCell.Lib.BoundedQueue
import NanoCell.Rtl8101.RxQueue

/-!
# The receive path as a service

How much of the receive queue a poll serves, and when the NIC is refused. The Rx ring with its
driver is a bounded queue over `NUM_RX_DESC` places: a reception takes a place and fails exactly
when there is none, a poll delivers as many of the waiting frames as its budget allows, whatever the
allocations do, and returns the places of all frames delivered unless an allocation fails. So a
shortage of buffers delays no frame that was received, and is over with the first poll that finds
memory.

## Main definitions

* `FrameEvent.toQueue`: receptions and polls, as arrivals and services
* `Serves`: what the Rx ring shows of the queue

## Main results

* `serves_run`: every run of receptions and polls is one of the bounded queue
* `recovers`: any polls deliver the frames that wait, as many as their budgets add up to, and the
  last one fills the ring again when it finds memory
-/

namespace Rtl8101

open Counter Transition

/-- The allocations of a poll find memory for a full ring, on top of what was mapped in the ring
`b`. -/
def Plenty (b : RxRing) (alloc : BitVec 32 → Allocator) : Prop :=
  ∀ c live, live.card < b.dma.live.card + numRxDesc → (alloc c).outcome live ≠ none

/-- A reception is an arrival, and a poll is a service. -/
def FrameEvent.toQueue (b : RxRing) : FrameEvent → BoundedQueue.Event RxFrame
  | .receive f => .arrive f
  | .poll alloc budget => .serve budget.toNat (Plenty b alloc)

namespace RxRing

variable {b r : RxRing} {R : List RxFrame} {D C : ℕ}

/-- **How far a receive pass gets**: as far as its budget, or to the last frame; and the refill
behind it goes on, to the end unless an allocation fails. -/
theorem Queue.rxInterrupt_served (h : Queue b r R D C) (hd : r.dirtyRx = BitVec.ofNat 32 D)
    (hc : r.curRx = BitVec.ofNat 32 C) (alloc : BitVec 32 → Allocator) (budget : BitVec 32) :
    ∃ r' D' C', C' = min R.length (C + budget.toNat) ∧
      r.rxInterrupt alloc budget = (r', BitVec.ofNat 32 (C' - C)) ∧
      Queue b r' R D' C' ∧ r'.dirtyRx = BitVec.ofNat 32 D' ∧ r'.curRx = BitVec.ofNat 32 C' ∧
      (D' < C' → r'.rxSkbuff (pos numRxDesc D') = none) ∧ D ≤ D' ∧ (Plenty b alloc → D' = C') ∧
      ∃ r₁, RxPass r C r₁ C' ∧ C' ≤ D + numRxDesc ∧ r'.handedUp = r₁.handedUp ∧
        r'.stats = r₁.stats := by
  have hle := h.le
  have hdone := h.done
  have hroom := h.room
  have hn := numRxDesc_eq
  obtain ⟨r', D', C', he, hqueue, hd', hc', hhead, hCC', hbudget, hend, hpass⟩ :=
    h.rxInterrupt hd hc alloc budget
  have hle' := hqueue.le
  have hdone' := hqueue.done
  have hroom' := hqueue.room
  have hC' : C' = min R.length (C + budget.toNat) := by omega
  obtain ⟨-, r₂, C₂, E, -, hCC₂, hC₂, -, -, -, hDE, hEC, hstop, he'⟩ :=
    rxInterrupt_spec alloc h.repr.null hc hd hle (by omega) budget
  rw [he, Prod.mk.injEq] at he'
  have hindex : BitVec.ofNat 32 D' = BitVec.ofNat 32 E := by
    rw [← hd', he'.1]
  obtain rfl : D' = E := by
    rcases Nat.le_total D' E with hlt | hlt
    · exact ofNat_inj hlt (by omega) hindex
    · exact (ofNat_inj hlt (by omega) hindex.symm).symm
  obtain rfl : C' = C₂ := by
    rcases Nat.le_total C' C₂ with hlt | hlt
    · have := ofNat_inj (w := 32) (by omega : C' - C ≤ C₂ - C) (by omega) he'.2
      omega
    · have := ofNat_inj (w := 32) (by omega : C₂ - C ≤ C' - C) (by omega) he'.2.symm
      omega
  refine ⟨r', D', C', hC', he, hqueue, hd', hc', hhead, hDE, ?_, hpass⟩
  -- the slot at which the refill would stop is empty, so the ring does not hold all its buffers
  intro hplenty
  by_contra hne
  obtain ⟨hnone, hout⟩ := hstop (by omega)
  have hlive : r₂.dma.live = b.dma.live + r'.mappings := by
    obtain ⟨-, -, -, hlive⟩ := hqueue.repr.holds
    rw [he'.1] at hlive ⊢
    exact hlive
  have hcard : r'.mappings.card < numRxDesc := by
    refine card_occupied_lt (i := pos numRxDesc D') ?_
    rw [he'.1]
    exact congrArg (Option.map rxMapping) hnone
  refine hplenty _ _ ?_ hout
  rw [hlive, Multiset.card_add]
  omega

end RxRing

variable {b : RxRing} {s t : Device × List RxFrame} {D C : ℕ}

/-- A poll, with the positions that it gets to. -/
theorem FramesAt.poll_served (h : FramesAt b s D C) (maxSkbFrags : ℕ)
    (alloc : BitVec 32 → Allocator) (budget : BitVec 32) :
    ∃ D' C', FramesAt b ((s.1.poll maxSkbFrags alloc budget).1, s.2) D' C' ∧
      C' = min s.2.length (C + budget.toNat) ∧ D ≤ D' ∧ (Plenty b alloc → D' = C') := by
  obtain ⟨r', D', C', hC', he, hqueue, hd, hc, hhead, hDD', hplenty, r₁, hpass, hroom, hup,
      hstats⟩ :=
    h.place.queue.rxInterrupt_served h.place.dirty h.place.cur alloc budget
  have htally : b.Tally r₁ (s.2.take C') :=
    RxRing.RxPass.frames (P := b.Tally)
      (fun r p f hf hrepr hshow ht => ht.rxEntry hrepr hshow (h.wellFormed f hf))
      hpass h.place.queue hroom h.tally
  obtain ⟨mask, stolen, hp⟩ := s.1.poll_eq maxSkbFrags alloc budget
  rw [he] at hp
  rw [hp]
  exact ⟨D', C', ⟨⟨hqueue, hd, hc, hhead, h.place.nic⟩, h.wellFormed, htally.congr hup hstats,
    (TxRing.txInterrupt_txDescNull _ _).trans h.txRing⟩, hC', hDD', hplenty⟩

/-- The device stands for the bounded queue `q`. -/
structure ServiceAt (b : RxRing) (s : Device × List RxFrame) (q : BoundedQueue RxFrame) : Prop where
  frames : FramesAt b s q.returned q.served
  items : q.items = s.2
  rxEnb : s.1.chip.rxEnb = true

variable {q : BoundedQueue RxFrame}

/-- **A step of the receive path** is one of the bounded queue. -/
theorem ServiceAt.step (h : ServiceAt b s q) {maxSkbFrags : ℕ} {e : FrameEvent} (hok : FrameOk s e)
    (hstep : frameStep maxSkbFrags s e = some t) :
    ∃ q', BoundedQueue.Step numRxDesc q (e.toQueue b) q' ∧ ServiceAt b t q' := by
  cases e with
  | receive f =>
    obtain ⟨u, hu, rfl⟩ := Option.map_eq_some_iff.mp hstep
    obtain ⟨-, i, hpos, hown, rfl⟩ := Device.receive_eq_some_iff.mp hu
    obtain rfl : pos numRxDesc s.2.length = i := by
      rw [Fin.ext_iff, pos_val, ← hpos, h.frames.place.nic]
    have hlt := h.frames.place.queue.lt_room h.frames.place.head hown
    rw [← h.items] at hlt
    refine ⟨_, .arrive f hlt, h.frames.receive hok hu, ?_, h.rxEnb⟩
    rw [h.items]
  | poll alloc budget =>
    cases hstep
    obtain ⟨D', C', hframes, hC', hDD', hplenty⟩ :=
      h.frames.poll_served maxSkbFrags alloc budget
    have hreach : q.reach budget.toNat = C' := by
      rw [BoundedQueue.reach, h.items, hC']
    obtain ⟨mask, stolen, he⟩ := s.1.poll_eq maxSkbFrags alloc budget
    refine ⟨_, .serve budget.toNat (Plenty b alloc) D' hDD' ?_ ?_, ?_, h.items, ?_⟩
    · rw [hreach]
      exact hframes.place.queue.le
    · intro hp
      rw [hreach]
      exact hplenty hp
    · dsimp only
      rw [hreach]
      exact hframes
    · rw [he]
      exact h.rxEnb

/-- What the Rx ring shows of the bounded queue `q` of the frames received: those served are
delivered, the others wait in the ring, and the NIC can store a frame exactly when there is a
place. -/
structure Serves (b : RxRing) (s : Device × List RxFrame) (q : BoundedQueue RxFrame) : Prop where
  items : q.items = s.2
  refines : b.Refines s.1.rx q.items q.served
  ahead : q.served + s.1.rx.ahead = q.returned + numRxDesc
  receive : ∀ f, (s.1.receive f).isSome = true ↔ q.items.length < q.returned + numRxDesc

theorem ServiceAt.serves (h : ServiceAt b s q) : Serves b s q := by
  obtain ⟨⟨hqueue, hd, hc, hhead, hnic⟩, -, htally, -⟩ := h.frames
  have hle := hqueue.le
  have hdone := hqueue.done
  have hroom := hqueue.room
  have hn := numRxDesc_eq
  rw [← h.items] at hqueue hdone hroom htally hnic
  refine ⟨h.items, hqueue.refines hd hc htally, ?_, ?_⟩
  · rw [RxRing.ahead, hc, hd, toNat_ofNat_sub hle (by omega)]
    omega
  · intro f
    constructor
    · intro hsome
      obtain ⟨u, hu⟩ := Option.isSome_iff_exists.mp hsome
      obtain ⟨-, i, hpos, hown, -⟩ := Device.receive_eq_some_iff.mp hu
      obtain rfl : pos numRxDesc q.items.length = i := by
        rw [Fin.ext_iff, pos_val, ← hpos, hnic]
      exact hqueue.lt_room hhead hown
    · intro hlt
      have hown := hqueue.offered q.items.length le_rfl hlt
      rw [Device.receive_eq_some_iff.mpr ⟨h.rxEnb, pos numRxDesc q.items.length, hnic, hown, rfl⟩]
      rfl

theorem ServiceAt.of_open {s : Device} {o : OpenOutcome} (h : (s.ndoOpen o).running = true) :
    ServiceAt s.rx (s.ndoOpen o, []) .empty :=
  ⟨.of_open h, rfl, (Device.ndoOpen_started h).rxEnb⟩

/-- The NIC can store a frame right after an open. -/
theorem run_open_poll (maxSkbFrags : ℕ) {s : Device} {o : OpenOutcome}
    (h : (s.ndoOpen o).running = true) (f : RxFrame) (alloc : BitVec 32 → Allocator)
    (budget : BitVec 32) :
    ∃ t, run (frameStep maxSkbFrags) (s.ndoOpen o, []) [.receive f, .poll alloc budget] =
      some t := by
  have hfree : ([] : List RxFrame).length < 0 + numRxDesc := by decide
  obtain ⟨u, hu⟩ := Option.isSome_iff_exists.mp (((ServiceAt.of_open h).serves.receive f).mpr hfree)
  have hstep : frameStep maxSkbFrags (s.ndoOpen o, []) (.receive f) = some (u, [f]) :=
    Option.map_eq_some_iff.mpr ⟨u, hu, rfl⟩
  exact ⟨_, run_cons hstep _⟩

/-- **The receive path is a bounded queue**: every run of receptions of well-formed frames and polls
after a successful open, with any budgets and allocation failures, is a run of the queue over
`NUM_RX_DESC` places, which the Rx ring shows. -/
theorem serves_run (maxSkbFrags : ℕ) {s : Device} {o : OpenOutcome}
    (h : (s.ndoOpen o).running = true) {es : List FrameEvent}
    (hok : Along (frameStep maxSkbFrags) FrameOk (s.ndoOpen o, []) es)
    (hrun : run (frameStep maxSkbFrags) (s.ndoOpen o, []) es = some t) :
    ∃ q, Steps (BoundedQueue.Step numRxDesc) .empty (es.map (FrameEvent.toQueue s.rx)) q ∧
      Serves s.rx t q := by
  obtain ⟨q, hsteps, hq⟩ := run_simulates (R := ServiceAt s.rx) (f := FrameEvent.toQueue s.rx)
    (fun _ _ _ _ hR hok hstep => hR.step hok hstep) hok (.of_open h) hrun
  exact ⟨q, hsteps, hq.serves⟩

/-- A frame arrives after the first open of a device, and a poll finds no memory. -/
theorem serves_run_shortage :
    ∃ t, run (frameStep 17) (Device.registered.ndoOpen .plenty, [])
        [.receive pingFrame, .poll (fun _ => .fail) 64#32] = some t ∧
      ∃ q, Steps (BoundedQueue.Step numRxDesc) .empty
          ([.receive pingFrame, .poll (fun _ => .fail) 64#32].map
            (FrameEvent.toQueue Device.registered.rx)) q ∧
        Serves Device.registered.rx t q := by
  have hping : pingFrame.WellFormed := by decide
  have hopen : (Device.registered.ndoOpen .plenty).running = true := Device.ndoOpen_plenty rfl
  obtain ⟨t, ht⟩ := run_open_poll 17 hopen pingFrame (fun _ => .fail) 64#32
  exact ⟨t, ht, serves_run 17 hopen (fun _ _ => ⟨hping, fun _ _ => ⟨trivial, trivial⟩⟩) ht⟩

/-! ## Recovery -/

/-- Polls one after another, each with its allocations and its budget. -/
def polls (ps : List ((BitVec 32 → Allocator) × BitVec 32)) : List FrameEvent :=
  ps.map fun p => .poll p.1 p.2

/-- The budgets of the polls, added up. -/
def budgets (ps : List ((BitVec 32 → Allocator) × BitVec 32)) : ℕ := (ps.map fun p => p.2.toNat).sum

/-- A poll is always possible. -/
theorem run_polls (maxSkbFrags : ℕ) (ps : List ((BitVec 32 → Allocator) × BitVec 32))
    (s : Device × List RxFrame) : ∃ t, run (frameStep maxSkbFrags) s (polls ps) = some t := by
  induction ps generalizing s with
  | nil => exact ⟨s, rfl⟩
  | cons p ps ih =>
    obtain ⟨t, ht⟩ := ih ((s.1.poll maxSkbFrags p.1 p.2).1, s.2)
    exact ⟨t, ht⟩

theorem along_polls (maxSkbFrags : ℕ) (ps : List ((BitVec 32 → Allocator) × BitVec 32))
    (s : Device × List RxFrame) : Along (frameStep maxSkbFrags) FrameOk s (polls ps) := by
  induction ps generalizing s with
  | nil => trivial
  | cons p ps ih => exact fun t _ => ⟨trivial, ih t⟩

/-- The service that a poll stands for. -/
def service (b : RxRing) (p : (BitVec 32 → Allocator) × BitVec 32) : ℕ × Prop :=
  (p.2.toNat, Plenty b p.1)

theorem polls_toQueue (b : RxRing) (ps : List ((BitVec 32 → Allocator) × BitVec 32)) :
    (polls ps).map (FrameEvent.toQueue b) = (ps.map (service b)).map fun x => .serve x.1 x.2 := by
  simp [polls, service, FrameEvent.toQueue]

/-- **Recovery**: whatever happened before, polls deliver the frames that wait, as many as their
budgets add up to, also when every allocation fails; and when the last one finds memory every
descriptor behind `cur_rx` is with the NIC or holds a frame again. -/
theorem recovers (maxSkbFrags : ℕ) {s : Device} {o : OpenOutcome}
    (h : (s.ndoOpen o).running = true) {es : List FrameEvent}
    (hok : Along (frameStep maxSkbFrags) FrameOk (s.ndoOpen o, []) es)
    (hrun : run (frameStep maxSkbFrags) (s.ndoOpen o, []) es = some t)
    (ps : List ((BitVec 32 → Allocator) × BitVec 32)) :
    ∃ n u, s.rx.Refines t.1.rx t.2 n ∧ run (frameStep maxSkbFrags) t (polls ps) = some u ∧
      s.rx.Refines u.1.rx t.2 (min t.2.length (n + budgets ps)) ∧
      ∀ p ∈ ps.getLast?, Plenty s.rx p.1 → u.1.rx.ahead = numRxDesc := by
  obtain ⟨q, hsteps, hq⟩ := run_simulates (R := ServiceAt s.rx) (f := FrameEvent.toQueue s.rx)
    (fun _ _ _ _ hR hok hstep => hR.step hok hstep) hok (.of_open h) hrun
  have hcounters := BoundedQueue.steps_ok hsteps BoundedQueue.ok_empty
  obtain ⟨u, hu⟩ := run_polls maxSkbFrags ps t
  obtain ⟨q', hsteps', hq'⟩ := run_simulates (R := ServiceAt s.rx) (f := FrameEvent.toQueue s.rx)
    (fun _ _ _ _ hR hok hstep => hR.step hok hstep) (along_polls maxSkbFrags ps t) hq hu
  rw [polls_toQueue] at hsteps'
  obtain ⟨hitems, hserved⟩ := BoundedQueue.steps_serve hcounters hsteps'
  have hsum : ((ps.map (service s.rx)).map fun x => x.1).sum = budgets ps := by
    rw [List.map_map]
    rfl
  have hshows := hq.serves
  have hshows' := hq'.serves
  have hrefines := hshows'.refines
  rw [hserved, hsum, hitems, hshows.items] at hrefines
  refine ⟨q.served, u, ?_, hu, hrefines, ?_⟩
  · rw [← hshows.items]
    exact hshows.refines
  · intro p hp hplenty
    rw [← List.dropLast_append_getLast? p hp, List.map_append, List.map_append] at hsteps'
    have hreturned := BoundedQueue.returned_of_plenty hsteps' hplenty
    have hahead := hshows'.ahead
    omega

/-- The allocation that takes the first of the `n` lowest addresses that is not in use. -/
def Allocator.firstFit (n : ℕ) : Allocator where
  outcome live := ((List.range n).map (BitVec.ofNat 64)).find? fun a =>
    decide (∀ m ∈ live, m.addr ≠ a)
  fresh live a h m hm := by
    have ha := List.find?_some h
    exact of_decide_eq_true ha m hm

/-- With fewer mappings than addresses there is an address that is not in use. -/
theorem Allocator.firstFit_ne_none {n : ℕ} (hn : n ≤ 2 ^ 64) {live : Multiset Mapping}
    (hlive : live.card < n) : (firstFit n).outcome live ≠ none := by
  have hcard : (live.map Mapping.addr).toFinset.card <
      ((Finset.range n).image (BitVec.ofNat 64)).card := by
    rw [Finset.card_image_of_injOn, Finset.card_range]
    · refine lt_of_le_of_lt (Multiset.toFinset_card_le _) ?_
      rwa [Multiset.card_map]
    · intro x hx y hy hxy
      have hx := Finset.mem_range.mp hx
      have hy := Finset.mem_range.mp hy
      have := congrArg BitVec.toNat hxy
      rw [BitVec.toNat_ofNat, BitVec.toNat_ofNat, Nat.mod_eq_of_lt (by omega),
        Nat.mod_eq_of_lt (by omega)] at this
      exact this
  obtain ⟨a, ha, hnot⟩ := Finset.exists_mem_notMem_of_card_lt_card hcard
  obtain ⟨p, hp, rfl⟩ := Finset.mem_image.mp ha
  intro hnone
  have := List.find?_eq_none.mp hnone (BitVec.ofNat 64 p)
    (List.mem_map.mpr ⟨p, List.mem_range.mpr (Finset.mem_range.mp hp), rfl⟩)
  refine this (decide_eq_true fun m hm heq => hnot ?_)
  exact Multiset.mem_toFinset.mpr (Multiset.mem_map.mpr ⟨m, hm, heq⟩)

/-- A frame arrives and a poll finds no memory; a poll without budget brings the ring back. -/
theorem recovers_shortage :
    ∃ t, run (frameStep 17) (Device.registered.ndoOpen .plenty, [])
        [.receive pingFrame, .poll (fun _ => .fail) 64#32] = some t ∧
      ∃ n u, Device.registered.rx.Refines t.1.rx t.2 n ∧
        run (frameStep 17) t (polls [(fun _ => .firstFit numRxDesc, 0#32)]) = some u ∧
        Device.registered.rx.Refines u.1.rx t.2
          (min t.2.length (n + budgets [(fun _ => .firstFit numRxDesc, 0#32)])) ∧
        u.1.rx.ahead = numRxDesc := by
  have hping : pingFrame.WellFormed := by decide
  have hopen : (Device.registered.ndoOpen .plenty).running = true := Device.ndoOpen_plenty rfl
  have hplenty : Plenty Device.registered.rx fun _ => .firstFit numRxDesc := fun _ _ hlive =>
    Allocator.firstFit_ne_none (by decide) (by rwa [show Device.registered.rx.dma.live = 0 from rfl,
      Multiset.card_zero, zero_add] at hlive)
  obtain ⟨t, ht⟩ := run_open_poll 17 hopen pingFrame (fun _ => .fail) 64#32
  have hok : Along (frameStep 17) FrameOk (Device.registered.ndoOpen .plenty, [])
      [.receive pingFrame, .poll (fun _ => .fail) 64#32] :=
    fun _ _ => ⟨hping, fun _ _ => ⟨trivial, trivial⟩⟩
  obtain ⟨n, u, hn, hu, hdelivered, hfull⟩ :=
    recovers 17 hopen hok ht [(fun _ => .firstFit numRxDesc, 0#32)]
  exact ⟨t, ht, n, u, hn, hu, hdelivered, hfull _ rfl hplenty⟩

end Rtl8101
