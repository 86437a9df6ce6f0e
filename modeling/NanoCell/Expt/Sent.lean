import NanoCell.Expt.Send

/-!
# What becomes of a frame

Two things are expected of a call of `expt_write` that was accepted: that its count is given back
when it is over, and that the NIC is given the frame of the caller. The count is given back by the
interrupt of a frame that was sent, and by nothing else: a call whose copy fails and a frame that
ends with an error keep it. And the length of a frame is set in a descriptor that still has the
lengths of the frames before it.

## Main definitions

* `Writers.Quiet`, `Writers.GivenBack`: nothing is under way, and the count is 0
* `NoLoss`: the steps that do not lose a count
* `Handed.Own`: the NIC was given the frame of the caller
* `Covers`: the frames whose length has every bit of the lengths before it

## Main results

* `Writers.Accounted.lost_step`: which steps lose a count
* `givenBack_iff`: a quiet state has the count at 0 exactly when no step of the run lost one
* `ownLength_iff`: every frame is handed over with its own length exactly when it covers the
  lengths before it
-/

namespace Expt

open Rtl8101 (Desc descOwn ringEnd firstFrag lastFrag txLenField hasBits)
open Transition

/-! ## The count given back -/

namespace Writers

/-- No call is executing, the NIC does not have the descriptor, and no Tx interrupt is latched or
half handled. -/
structure Quiet (s : Writers) : Prop where
  calls : ∀ c ∈ s.calls, c.executing = false
  own : s.tx.descTx.own = false
  intr : ¬ s.tx.dev.Latched (intrTxOkBit ||| intrTxErr)
  handler : s.handler.inTx = false

instance (s : Writers) : Decidable s.Quiet :=
  decidable_of_iff ((∀ c ∈ s.calls, c.executing = false) ∧ s.tx.descTx.own = false ∧
      ¬ s.tx.dev.Latched (intrTxOkBit ||| intrTxErr) ∧ s.handler.inTx = false)
    ⟨fun h => ⟨h.1, h.2.1, h.2.2.1, h.2.2.2⟩, fun h => ⟨h.calls, h.own, h.intr, h.handler⟩⟩

/-- In a quiet state the count is 0, and no further call is refused. -/
structure GivenBack (s : Writers) : Prop where
  busy : s.tx.dev.pktTxBusy = 0
  accepted : ∀ bytes fault, (s.tx.exptWrite bytes fault).2 ≠ .ebusy

end Writers

/-- No copy of a call that passed the check fails, and no frame ends with `TX_ERR`. -/
def NoLoss (s : Writers) : WritersEvent → Prop
  | .write i fault => ∀ c ∈ s.calls[i]?, c.pc = .passed → ∀ n ∈ fault, toWrite c.bytes ≤ n
  | .fail => False
  | _ => True

instance (s : Writers) : ∀ e, Decidable (NoLoss s e)
  | .write i _ => inferInstanceAs (Decidable (∀ c ∈ s.calls[i]?, _ → _))
  | .fail => isFalse id
  | .call _ | .complete | .latchOther _ | .handler => isTrue trivial

namespace Writers

/-- The count of some call will never be given back. -/
def Lost (s : Writers) : Prop := ∃ j, (j, Stage.lost) ∈ s.holders

variable {s t : Writers} {i : ℕ} {c : WriteCall}

theorem copyFromUser_left (dst : ℕ → BitVec 8) (bytes : List (BitVec 8)) (n : ℕ)
    (fault : Option ℕ) : (copyFromUser dst bytes n fault).2 = 0 ↔ ∀ m ∈ fault, n ≤ m := by
  cases fault with
  | none => simp [copyFromUser]
  | some m =>
    simp only [copyFromUser, Option.elim_some, Option.mem_some_iff, forall_eq']
    omega

/-- In a quiet state every holder is lost. -/
theorem Accounted.lost_of_quiet (h : s.Accounted) (hq : s.Quiet) {x : ℕ × Stage}
    (hx : x ∈ s.holders) : x.2 = .lost := by
  obtain ⟨j, st⟩ := x
  cases st with
  | filling =>
    obtain ⟨c, hc, hfill⟩ := (h.filling j).mp hx
    have hout := hq.calls c (List.mem_of_getElem? hc)
    simp only [WriteCall.filling, decide_eq_true_eq] at hfill
    rcases hfill with hpc | hpc <;> simp [WriteCall.executing, hpc] at hout
  | onWire =>
    have hown := h.onWire.mpr ⟨j, hx⟩
    rw [hq.own] at hown
    cases hown
  | done =>
    have hok : ¬ s.tx.dev.Latched intrTxOkBit := by
      intro hlatched
      apply hq.intr
      intro h0
      rw [BitVec.and_or_distrib_left, BitVec.or_eq_zero_iff] at h0
      exact hlatched h0.1
    have hnone := h.done
    rw [txPending, if_neg hok, hq.handler] at hnone
    have hdone := List.countP_eq_zero.mp hnone _ hx
    simp at hdone
  | lost => rfl

theorem Accounted.quiet_iff (h : s.Accounted) (hq : s.Quiet) : s.GivenBack ↔ ¬ s.Lost := by
  have hnone : s.calls.countP WriteCall.counted = 0 := by
    rw [List.countP_eq_zero]
    intro c hc hcounted
    have hout := hq.calls c hc
    simp only [WriteCall.counted, decide_eq_true_eq] at hcounted
    rcases hcounted with hpc | hpc <;> simp [WriteCall.executing, hpc] at hout
  have hbusy := h.busy
  rw [hnone] at hbusy
  constructor
  · rintro hback ⟨j, hj⟩
    have hpos := List.length_pos_of_mem hj
    rw [hback.busy] at hbusy
    omega
  · intro hlost
    have hempty : s.holders = [] := by
      rw [List.eq_nil_iff_forall_not_mem]
      intro x hx
      have hx' := h.lost_of_quiet hq hx
      exact hlost ⟨x.1, hx' ▸ hx⟩
    rw [hempty] at hbusy
    refine ⟨hbusy, ?_⟩
    intro bytes fault
    have hone : (s.tx.addBusy 1).dev.pktTxBusy = 1 := by
      rw [TxDev.addBusy, hbusy]
      rfl
    simp only [TxDev.exptWrite, hone, ne_eq, not_true_eq_false, if_false]
    split_ifs <;> exact id

/-- A step of a call loses its count when the copy fails. -/
theorem Accounted.lost_write {fault : Option ℕ} (h : s.Accounted) (hc : s.calls[i]? = some c)
    (hwrite : s.write i c fault = some t) :
    t.Lost ↔ s.Lost ∨ ¬ (c.pc = .passed → ∀ n ∈ fault, toWrite c.bytes ≤ n) := by
  unfold Writers.write at hwrite
  split at hwrite
  · next hpc =>
    cases hwrite
    simp [Lost, Writers.goto, hpc]
  · next hpc =>
    split_ifs at hwrite
    · cases hwrite
      simp [Lost, Writers.goto, hpc]
    · cases hwrite
      simp [Lost, hpc]
  · next hpc =>
    cases hwrite
    simp [Lost, Writers.goto, hpc]
  · next hpc =>
    have hholders := h.holder hc (by simp [WriteCall.filling, hpc])
    have hcopied := copyFromUser_left s.tx.pktTx c.bytes (toWrite c.bytes) fault
    dsimp only at hwrite
    split_ifs at hwrite with hleft
    · cases hwrite
      rw [← hcopied]
      simp [Lost, Writers.goto, mark, hholders, hpc, hleft]
    · cases hwrite
      rw [← hcopied]
      simp [Lost, Writers.goto, hpc, not_not.mp hleft]
  · next hpc =>
    cases hwrite
    have hholders := h.holder hc (by simp [WriteCall.filling, hpc])
    simp [Lost, Writers.goto, mark, hholders, hpc]
  · next hpc =>
    cases hwrite
    simp [Lost, Writers.goto, hpc]
  · cases hwrite

/-- **What a step loses**: the count of a call is lost by a failed copy, and by a frame that ends
with `TX_ERR`, and nothing gives it back. -/
theorem Accounted.lost_step {e : WritersEvent} (h : s.Accounted)
    (hstep : writersStep s e = some t) : t.Lost ↔ s.Lost ∨ ¬ NoLoss s e := by
  cases e with
  | call bytes =>
    cases hstep
    simp [Lost, NoLoss]
  | latchOther bits =>
    cases hstep
    simp [Lost, NoLoss]
  | handler =>
    cases hstep
    have herase : ∀ j, (j, Stage.lost) ∈ s.holders.eraseP (fun x => x.2 = .done) ↔
        (j, Stage.lost) ∈ s.holders := fun j => List.mem_eraseP_of_neg (by simp)
    simp only [Lost, NoLoss, Writers.handle, not_true_eq_false, or_false]
    split_ifs
    · exact exists_congr herase
    · rfl
  | complete =>
    obtain ⟨tx, htx, rfl⟩ := Option.map_eq_some_iff.mp hstep
    obtain ⟨j, hj⟩ := h.wire (TxDev.nicDone_eq_some htx).1
    simp [Lost, NoLoss, markWire, hj]
  | fail =>
    obtain ⟨tx, htx, rfl⟩ := Option.map_eq_some_iff.mp hstep
    obtain ⟨j, hj⟩ := h.wire (TxDev.nicDone_eq_some htx).1
    simp [Lost, NoLoss, markWire, hj]
  | write i fault =>
    obtain ⟨c, hc, hwrite⟩ := Option.bind_eq_some_iff.mp hstep
    have hloss : NoLoss s (.write i fault) ↔
        (c.pc = .passed → ∀ n ∈ fault, toWrite c.bytes ≤ n) := by
      simp [NoLoss, hc]
    rw [hloss]
    exact h.lost_write hc hwrite

/-- What a run loses. -/
theorem Accounted.lost_run {es : List WritersEvent} (h : s.Accounted)
    (hrun : run writersStep s es = some t) :
    t.Lost ↔ s.Lost ∨ ¬ Along writersStep NoLoss s es := by
  induction es generalizing s with
  | nil =>
    cases hrun
    simp [Along]
  | cons e es ih =>
    obtain ⟨u, hu, hrest⟩ := Option.bind_eq_some_iff.mp hrun
    rw [ih (h.step hu) hrest, h.lost_step hu, along_cons hu]
    tauto

end Writers

/-- **The count given back**: along every run in which no copy of an accepted call fails and no
frame ends with `TX_ERR`, the count is 0 in every quiet state; and a run that comes to a quiet
state has given the count back exactly when it is such a run. -/
theorem givenBack_iff {tx : TxDev} (hok : ¬ tx.dev.Latched intrTxOkBit)
    (phyPktTx phyPktRx : BitVec 64) (es : List WritersEvent) :
    (Along writersStep NoLoss (.start (tx.setupBuffers phyPktTx phyPktRx)) es →
        Always writersStep (fun s => s.Quiet → s.GivenBack)
          (.start (tx.setupBuffers phyPktTx phyPktRx)) es) ∧
      ∀ t, run writersStep (.start (tx.setupBuffers phyPktTx phyPktRx)) es = some t → t.Quiet →
        (t.GivenBack ↔
          Along writersStep NoLoss (.start (tx.setupBuffers phyPktTx phyPktRx)) es) := by
  have hstart := Writers.accounted_start hok phyPktTx phyPktRx
  have hnone : ¬ (Writers.start (tx.setupBuffers phyPktTx phyPktRx)).Lost := by
    simp [Writers.Lost, Writers.start]
  constructor
  · intro hrun
    have hkept : Always writersStep (fun s => s.Accounted ∧ ¬ s.Lost)
        (.start (tx.setupBuffers phyPktTx phyPktRx)) es := by
      refine hrun.always ?_ ⟨hstart, hnone⟩
      rintro s e t ⟨h, hlost⟩ hno hstep
      refine ⟨h.step hstep, ?_⟩
      rw [h.lost_step hstep]
      tauto
    exact hkept.mono fun s h hq => (h.1.quiet_iff hq).mpr h.2
  · intro t hrun hq
    have hend : t.Accounted :=
      (always_of_step (fun _ _ _ h hst => Writers.Accounted.step h hst) hstart es).of_run hrun
    rw [hend.quiet_iff hq, hstart.lost_run hrun]
    tauto

/-- A call whose buffer can be read is accepted, sent and counted down. -/
theorem givenBack_iff_sent :
    let s := Writers.start (TxDev.loaded.setupBuffers 0x1000#64 0x2000#64)
    let es : List WritersEvent := [.call [1#8], .write 0 none, .write 0 none, .write 0 none,
      .write 0 none, .write 0 none, .complete, .handler, .handler, .handler, .handler]
    ¬ TxDev.loaded.dev.Latched intrTxOkBit ∧ Along writersStep NoLoss s es ∧
      Always writersStep (fun s => s.Quiet → s.GivenBack) s es :=
  ⟨by decide, by decide, (givenBack_iff (by decide) _ _ _).1 (by decide)⟩

/-- A call whose buffer cannot be read, and a frame that ends with `TX_ERR`: nothing is under way
any more, the count is 1, and the next call is refused. -/
theorem busy_lost :
    let s := Writers.start (TxDev.loaded.setupBuffers 0x1000#64 0x2000#64)
    let fault : List WritersEvent := [.call [1#8], .write 0 none, .write 0 none, .write 0 (some 0)]
    let error : List WritersEvent := [.call [1#8], .write 0 none, .write 0 none, .write 0 none,
      .write 0 none, .write 0 none, .fail, .handler, .handler, .handler, .handler, .handler,
      .handler]
    ((run writersStep s fault).map fun t =>
        (decide t.Quiet, t.tx.dev.pktTxBusy, (t.tx.exptWrite [2#8] none).2)) =
      some (true, 1, .ebusy) ∧
    ((run writersStep s error).map fun t =>
        (decide t.Quiet, t.tx.dev.pktTxBusy, (t.tx.exptWrite [2#8] none).2)) =
      some (true, 1, .ebusy) ∧
    ¬ Always writersStep (fun s => s.Quiet → s.GivenBack) s fault ∧
    ¬ Always writersStep (fun s => s.Quiet → s.GivenBack) s error := by
  intro s fault error
  have hno : ∀ es, ((run writersStep s es).map fun t =>
      (decide t.Quiet, t.tx.dev.pktTxBusy, (t.tx.exptWrite [2#8] none).2)) =
        some (true, 1, .ebusy) →
      ¬ Always writersStep (fun s => s.Quiet → s.GivenBack) s es := by
    intro es hes hall
    obtain ⟨t, ht, he⟩ := Option.map_eq_some_iff.mp hes
    simp only [Prod.mk.injEq, decide_eq_true_eq] at he
    exact (hall.of_run ht he.1).accepted _ _ he.2.2
  have hfault : ((run writersStep s fault).map fun t =>
      (decide t.Quiet, t.tx.dev.pktTxBusy, (t.tx.exptWrite [2#8] none).2)) =
        some (true, 1, .ebusy) := by decide
  have herror : ((run writersStep s error).map fun t =>
      (decide t.Quiet, t.tx.dev.pktTxBusy, (t.tx.exptWrite [2#8] none).2)) =
        some (true, 1, .ebusy) := by decide
  exact ⟨hfault, herror, hno fault hfault, hno error herror⟩

/-! ## The length of a frame -/

/-- The NIC was given the frame of the caller: as many bytes of it as there is room for, with that
length, as the one and only descriptor of the ring and of the frame. -/
structure Handed.Own (f : Handed) : Prop where
  length : (txLenField f.word).toNat = toWrite f.bytes
  data : f.data = f.bytes.take (toWrite f.bytes)
  ringEnd : hasBits f.word ringEnd = true
  firstFrag : hasBits f.word firstFrag = true
  lastFrag : hasBits f.word lastFrag = true

/-- Every frame was handed over as the caller's. -/
def Writers.OwnLength (s : Writers) : Prop := ∀ f ∈ s.sent, f.Own

/-- The length of a frame that is handed over has every bit of the lengths before it. -/
def Covers (s : Writers) : WritersEvent → Prop
  | .write i _ => ∀ c ∈ s.calls[i]?, c.pc = .copied →
    ∀ f ∈ s.sent, toWrite f.bytes ||| toWrite c.bytes = toWrite c.bytes
  | _ => True

instance (s : Writers) : ∀ e, Decidable (Covers s e)
  | .write i _ => inferInstanceAs (Decidable (∀ c ∈ s.calls[i]?, _ → _))
  | .call _ | .complete | .fail | .latchOther _ | .handler => isTrue trivial

/-- The bits of all the numbers of a list. -/
def orAll (l : List ℕ) : ℕ := l.foldr (· ||| ·) 0

theorem or_or_eq_right_iff (a b n : ℕ) : (a ||| b) ||| n = n ↔ a ||| n = n ∧ b ||| n = n := by
  constructor
  · intro h
    have habsorb : ∀ x, x ||| (a ||| b) = a ||| b → x ||| n = n := by
      intro x hx
      rw [← h, ← Nat.or_assoc, hx]
    refine ⟨habsorb a ?_, habsorb b ?_⟩
    · rw [← Nat.or_assoc, Nat.or_self]
    · rw [Nat.or_comm a b, ← Nat.or_assoc, Nat.or_self]
  · rintro ⟨ha, hb⟩
    rw [Nat.or_assoc, hb, ha]

/-- A number absorbs all of a list exactly when it absorbs each of it. -/
theorem orAll_or_eq_right_iff (l : List ℕ) (n : ℕ) :
    orAll l ||| n = n ↔ ∀ m ∈ l, m ||| n = n := by
  induction l with
  | nil => simp [orAll]
  | cons a l ih =>
    rw [List.forall_mem_cons, ← ih]
    exact or_or_eq_right_iff a (orAll l) n

theorem orAll_append (l : List ℕ) (n : ℕ) : orAll (l ++ [n]) = orAll l ||| n := by
  induction l with
  | nil => simp [orAll]
  | cons a l ih =>
    simp only [orAll, List.cons_append, List.foldr_cons] at ih ⊢
    rw [ih, Nat.or_assoc]

theorem toWrite_lt (bytes : List (BitVec 8)) : toWrite bytes < 2 ^ 16 := by
  have hle : toWrite bytes ≤ pktSize := min_le_right _ _
  have hsize : pktSize = 256 := rfl
  omega

/-- **The length field that is handed over**: the old one, and the bits of the new length. -/
theorem TxDev.handOver_txLenField (s : TxDev) (bytes : List (BitVec 8)) :
    (txLenField (s.handOver (toWrite bytes)).descTx.opts1).toNat =
      (txLenField s.descTx.opts1).toNat ||| toWrite bytes := by
  have hlt := toWrite_lt bytes
  have hnew : (txLenField (BitVec.ofNat 32 (toWrite bytes))).toNat = toWrite bytes := by
    rw [Rtl8101.txLenField_toNat, BitVec.toNat_ofNat]
    omega
  simp only [TxDev.handOver, Rtl8101.txLenField_or, Rtl8101.txLenField_descOwn, BitVec.or_zero,
    BitVec.toNat_or, hnew]

/-- Bytes that were copied are those of the caller. -/
theorem map_range_eq_take {mem : ℕ → BitVec 8} {bytes : List (BitVec 8)} {n : ℕ}
    (hn : n ≤ bytes.length) (h : ∀ k < n, mem k = bytes.getD k 0#8) :
    (List.range n).map mem = bytes.take n := by
  refine List.ext_getElem (by simp [hn]) ?_
  intro k hk hk'
  simp only [List.length_map, List.length_range] at hk
  simp [h k hk, List.getElem?_eq_getElem (lt_of_lt_of_le hk hn)]

namespace Writers

/-- The descriptor keeps its flags and the bits of every length that was handed over, and the
buffer has the bytes of the call that copied them. -/
structure Framed (s : Writers) : Prop where
  accounted : s.Accounted
  length : (txLenField s.tx.descTx.opts1).toNat = orAll (s.sent.map fun f => toWrite f.bytes)
  ringEnd : hasBits s.tx.descTx.opts1 ringEnd = true
  firstFrag : hasBits s.tx.descTx.opts1 firstFrag = true
  lastFrag : hasBits s.tx.descTx.opts1 lastFrag = true
  copied : ∀ (i : ℕ) (c : WriteCall), s.calls[i]? = some c → c.pc = .copied →
    ∀ k < toWrite c.bytes, s.tx.pktTx k = c.bytes.getD k 0#8
  own : s.OwnLength

variable {s t : Writers} {i j : ℕ} {c d : WriteCall} {pc : WritePc} {e : WritersEvent}

theorem getElem?_goto (hd : (s.goto i pc).calls[j]? = some d) (hne : d.pc ≠ pc) :
    s.calls[j]? = some d := by
  by_cases hij : i = j
  · subst hij
    simp only [goto, List.getElem?_modify_eq, Option.map_eq_map, Option.map_eq_some_iff] at hd
    obtain ⟨c, -, rfl⟩ := hd
    exact absurd rfl hne
  · rwa [goto, List.getElem?_modify_ne _ _ hij] at hd

/-- A step that hands nothing over and leaves the buffer. -/
theorem Framed.of_same (h : s.Framed) (hacc : t.Accounted) (hdesc : t.tx.descTx = s.tx.descTx)
    (hpkt : t.tx.pktTx = s.tx.pktTx) (hsent : t.sent = s.sent)
    (hcalls : ∀ (i : ℕ) (c : WriteCall), t.calls[i]? = some c → c.pc = .copied →
      s.calls[i]? = some c) :
    t.Framed := by
  refine ⟨hacc, ?_, ?_, ?_, ?_, ?_, ?_⟩
  · rw [hdesc, hsent]
    exact h.length
  · rw [hdesc]
    exact h.ringEnd
  · rw [hdesc]
    exact h.firstFrag
  · rw [hdesc]
    exact h.lastFrag
  · intro i c hc hpc
    rw [hpkt]
    exact h.copied i c (hcalls i c hc hpc) hpc
  · rw [OwnLength, hsent]
    exact h.own

/-- The descriptor is handed over: what was copied is the caller's, and the length is right
exactly when the new one has every bit of those before it. -/
theorem Framed.handed (h : s.Framed) (hc : s.calls[i]? = some c) (hpc : c.pc = .copied) :
    Handed.Own ⟨c.bytes, (s.tx.handOver (toWrite c.bytes)).descTx.opts1,
        (List.range (toWrite c.bytes)).map s.tx.pktTx⟩ ↔
      ∀ f ∈ s.sent, toWrite f.bytes ||| toWrite c.bytes = toWrite c.bytes := by
  have hlen := s.tx.handOver_txLenField c.bytes
  rw [h.length] at hlen
  have hcover := orAll_or_eq_right_iff (s.sent.map fun f => toWrite f.bytes) (toWrite c.bytes)
  rw [List.forall_mem_map] at hcover
  rw [← hcover, ← hlen]
  constructor
  · exact fun hown => hown.length
  · intro hlength
    have hdata := map_range_eq_take (min_le_left _ _) (h.copied i c hc hpc)
    refine ⟨hlength, hdata, ?_, ?_, ?_⟩
    · simp [TxDev.handOver, Rtl8101.hasBits_or, h.ringEnd]
    · simp [TxDev.handOver, Rtl8101.hasBits_or, h.firstFrag]
    · simp [TxDev.handOver, Rtl8101.hasBits_or, h.lastFrag]

/-- Two calls do not write at a time. -/
theorem Accounted.filling_unique (h : s.Accounted) (hc : s.calls[i]? = some c)
    (hfill : c.filling = true) (hd : s.calls[j]? = some d) (hfill' : d.filling = true) : j = i := by
  have hone := h.holder hc hfill
  rw [h.holder hd hfill'] at hone
  simpa using hone

theorem copyFromUser_getD {dst : ℕ → BitVec 8} {bytes : List (BitVec 8)} {n : ℕ}
    {fault : Option ℕ} (hleft : (copyFromUser dst bytes n fault).2 = 0) {k : ℕ} (hk : k < n) :
    (copyFromUser dst bytes n fault).1 k = bytes.getD k 0#8 := by
  have hreadable : k < fault.elim n (min n) := by
    simp only [copyFromUser] at hleft
    omega
  exact if_pos hreadable

/-- A copy, whether it succeeds or not. -/
theorem Framed.copy (h : s.Framed) (hc : s.calls[i]? = some c) (hpc : c.pc = .passed)
    {fault : Option ℕ} (hwrite : s.write i c fault = some t) : t.Framed := by
  have hacc := h.accounted.write hc hwrite
  have hfill : c.filling = true := by simp [WriteCall.filling, hpc]
  have hother : ∀ (j : ℕ) (d : WriteCall), s.calls[j]? = some d → d.pc ≠ .copied := by
    intro j d hd hcop
    have hij := h.accounted.filling_unique hc hfill hd (by simp [WriteCall.filling, hcop])
    rw [hij, hc, Option.some.injEq] at hd
    rw [← hd, hpc] at hcop
    cases hcop
  simp only [Writers.write, hpc] at hwrite
  split_ifs at hwrite with hleft
  · cases hwrite
    refine ⟨hacc, h.length, h.ringEnd, h.firstFrag, h.lastFrag, ?_, h.own⟩
    intro j d hd hcop
    exact absurd hcop (hother j d (getElem?_goto hd (by simp [hcop])))
  · cases hwrite
    refine ⟨hacc, h.length, h.ringEnd, h.firstFrag, h.lastFrag, ?_, h.own⟩
    intro j d hd hcop k hk
    by_cases hij : i = j
    · subst hij
      simp only [goto, List.getElem?_modify_eq, hc, Option.map_eq_map, Option.map_some,
        Option.some.injEq] at hd
      subst hd
      exact copyFromUser_getD (not_not.mp hleft) hk
    · rw [goto, List.getElem?_modify_ne _ _ hij] at hd
      exact absurd hcop (hother j d hd)

/-- The descriptor handed over. -/
theorem Framed.handOver (h : s.Framed) (hc : s.calls[i]? = some c) (hpc : c.pc = .copied)
    {fault : Option ℕ} (hwrite : s.write i c fault = some t)
    (hok : ∀ f ∈ s.sent, toWrite f.bytes ||| toWrite c.bytes = toWrite c.bytes) : t.Framed := by
  have hacc := h.accounted.write hc hwrite
  have hnew := (h.handed hc hpc).mpr hok
  simp only [Writers.write, hpc] at hwrite
  cases hwrite
  refine ⟨hacc, ?_, hnew.ringEnd, hnew.firstFrag, hnew.lastFrag, ?_, ?_⟩
  · dsimp only
    rw [List.map_append, List.map_singleton, orAll_append, ← h.length]
    exact s.tx.handOver_txLenField c.bytes
  · intro j d hd hcop
    exact h.copied j d (getElem?_goto hd (by simp [hcop])) hcop
  · intro f hf
    rcases List.mem_append.mp hf with hf | hf
    · exact h.own f hf
    · rw [List.mem_singleton.mp hf]
      exact hnew

theorem Framed.write (h : s.Framed) (hc : s.calls[i]? = some c) {fault : Option ℕ}
    (hok : Covers s (.write i fault)) (hwrite : s.write i c fault = some t) : t.Framed := by
  have hacc := h.accounted.write hc hwrite
  cases hpc : c.pc with
  | passed => exact h.copy hc hpc hwrite
  | copied => exact h.handOver hc hpc hwrite (hok c hc hpc)
  | entered =>
    simp only [Writers.write, hpc] at hwrite
    cases hwrite
    exact h.of_same hacc rfl rfl rfl fun j d hd hcop => getElem?_goto hd (by simp [hcop])
  | incremented =>
    simp only [Writers.write, hpc] at hwrite
    split_ifs at hwrite
    · cases hwrite
      exact h.of_same hacc rfl rfl rfl fun j d hd hcop => getElem?_goto hd (by simp [hcop])
    · cases hwrite
      exact h.of_same hacc rfl rfl rfl fun j d hd hcop => getElem?_goto hd (by simp [hcop])
  | refused =>
    simp only [Writers.write, hpc] at hwrite
    cases hwrite
    exact h.of_same hacc rfl rfl rfl fun j d hd hcop => getElem?_goto hd (by simp [hcop])
  | handed =>
    simp only [Writers.write, hpc] at hwrite
    cases hwrite
    exact h.of_same hacc rfl rfl rfl fun j d hd hcop => getElem?_goto hd (by simp [hcop])
  | returned r => simp [Writers.write, hpc] at hwrite

/-- The NIC clears `DescOwn` and leaves the rest of the descriptor. -/
theorem Framed.nicDone (h : s.Framed) {bit : BitVec 16} {tx : TxDev} {st : Stage}
    (htx : s.tx.nicDone bit = some tx) (hacc : Accounted { s.markWire st with tx := tx }) :
    Framed { s.markWire st with tx := tx } := by
  obtain ⟨-, rfl⟩ := TxDev.nicDone_eq_some htx
  have hkeep : ∀ {flag : BitVec 32}, Rtl8101.IsFlag flag → hasBits descOwn flag = false →
      hasBits s.tx.descTx.opts1 flag = true →
      hasBits (s.tx.descTx.opts1 &&& ~~~descOwn) flag = true := by
    intro flag hflag hne hset
    rw [Rtl8101.hasBits_and hflag, Rtl8101.hasBits_not hflag, hne, hset]
    rfl
  refine ⟨hacc, ?_, hkeep Rtl8101.isFlag_ringEnd (by decide) h.ringEnd,
    hkeep Rtl8101.isFlag_firstFrag (by decide) h.firstFrag,
    hkeep Rtl8101.isFlag_lastFrag (by decide) h.lastFrag, h.copied, h.own⟩
  refine .trans ?_ h.length
  have hmask : ~~~descOwn &&& 0x0000FFFF#32 = 0x0000FFFF#32 := by decide
  simp only [txLenField, BitVec.and_assoc, hmask]

theorem Framed.step (h : s.Framed) (hok : Covers s e) (hstep : writersStep s e = some t) :
    t.Framed := by
  have hacc := h.accounted.step hstep
  cases e with
  | call bytes =>
    cases hstep
    refine h.of_same hacc rfl rfl rfl ?_
    intro j d hd hcop
    rcases lt_or_ge j s.calls.length with hj | hj
    · rwa [List.getElem?_append_left hj] at hd
    · rw [List.getElem?_append_right hj] at hd
      cases hk : j - s.calls.length with
      | zero =>
        simp only [hk, List.getElem?_cons_zero, Option.some.injEq] at hd
        rw [← hd] at hcop
        cases hcop
      | succ k => simp [hk] at hd
  | write i fault =>
    obtain ⟨c, hc, hwrite⟩ := Option.bind_eq_some_iff.mp hstep
    exact h.write hc hok hwrite
  | complete =>
    obtain ⟨tx, htx, rfl⟩ := Option.map_eq_some_iff.mp hstep
    exact h.nicDone htx hacc
  | fail =>
    obtain ⟨tx, htx, rfl⟩ := Option.map_eq_some_iff.mp hstep
    exact h.nicDone htx hacc
  | latchOther bits =>
    cases hstep
    exact h.of_same hacc rfl rfl rfl fun j d hd _ => hd
  | handler =>
    cases hstep
    exact h.of_same hacc rfl rfl rfl fun j d hd _ => hd

/-- A frame with a smaller length, or one that lacks a bit of those before it, is handed over with
a length that is not its own. -/
theorem Framed.not_ownLength (h : s.Framed) (hok : ¬ Covers s e)
    (hstep : writersStep s e = some t) : ¬ t.OwnLength := by
  cases e with
  | call | complete | fail | latchOther | handler => exact absurd trivial hok
  | write i fault =>
    obtain ⟨c, hc, hwrite⟩ := Option.bind_eq_some_iff.mp hstep
    simp only [Covers, hc, Option.mem_some_iff, forall_eq', Classical.not_imp] at hok
    obtain ⟨hpc, hno⟩ := hok
    simp only [Writers.write, hpc] at hwrite
    cases hwrite
    intro hown
    exact hno ((h.handed hc hpc).mp (hown _ (by simp)))

theorem framed_start {tx : TxDev} (hok : ¬ tx.dev.Latched intrTxOkBit)
    (phyPktTx phyPktRx : BitVec 64) : (start (tx.setupBuffers phyPktTx phyPktRx)).Framed := by
  have hword : (tx.setupBuffers phyPktTx phyPktRx).descTx.opts1 =
      Rtl8101.ringEnd ||| Rtl8101.firstFrag ||| Rtl8101.lastFrag := rfl
  refine ⟨accounted_start hok phyPktTx phyPktRx, ?_, ?_, ?_, ?_, ?_, ?_⟩
  · simp only [start, hword]
    decide
  · simp only [start, hword]
    decide
  · simp only [start, hword]
    decide
  · simp only [start, hword]
    decide
  · intro i c hc
    cases hc
  · intro f hf
    cases hf

end Writers

/-- **The length of a frame**: after the set-up, through any calls, interrupts and completions,
every frame is handed over with its own length and bytes exactly as long as its length has every
bit of the lengths handed over before it. -/
theorem ownLength_iff {tx : TxDev} (hok : ¬ tx.dev.Latched intrTxOkBit)
    (phyPktTx phyPktRx : BitVec 64) (es : List WritersEvent) :
    Always writersStep Writers.OwnLength (.start (tx.setupBuffers phyPktTx phyPktRx)) es ↔
      Along writersStep Covers (.start (tx.setupBuffers phyPktTx phyPktRx)) es :=
  always_iff_along (J := Writers.Framed) (fun _ h => h.own)
    (fun _ _ _ h hcover hstep => h.step hcover hstep)
    (fun _ _ _ h hcover hstep => h.not_ownLength hcover hstep)
    (Writers.framed_start hok phyPktTx phyPktRx) es

/-- A call for `bytes`, the `i`-th one, that is accepted, sent and counted down. -/
def sendFrame (i : ℕ) (bytes : List (BitVec 8)) : List WritersEvent :=
  [.call bytes, .write i none, .write i none, .write i none, .write i none, .write i none,
    .complete, .handler, .handler, .handler, .handler, .handler, .handler]

/-- A frame of 4 bytes, and one of 12 bytes after it. -/
theorem ownLength_iff_longer :
    let s := Writers.start (TxDev.loaded.setupBuffers 0x1000#64 0x2000#64)
    let es := sendFrame 0 (List.replicate 4 1#8) ++ sendFrame 1 (List.replicate 12 2#8)
    ¬ TxDev.loaded.dev.Latched intrTxOkBit ∧ Along writersStep Covers s es ∧
      Always writersStep Writers.OwnLength s es := by
  intro s es
  have hcover : Along writersStep Covers s es := by decide +kernel
  exact ⟨by decide, hcover, (ownLength_iff (by decide) _ _ _).mpr hcover⟩

/-- A frame of 60 bytes, and one of 100 bytes after it: the NIC is told to send 124. -/
theorem secondFrame_length :
    let s := Writers.start (TxDev.loaded.setupBuffers 0x1000#64 0x2000#64)
    let es := sendFrame 0 (List.replicate 60 1#8) ++ sendFrame 1 (List.replicate 100 2#8)
    ((run writersStep s es).map fun t =>
        t.sent.map fun f => (f.bytes.length, (txLenField f.word).toNat)) =
      some [(60, 60), (100, 124)] ∧
    ¬ Always writersStep Writers.OwnLength s es := by
  intro s es
  have hes : ((run writersStep s es).map fun t =>
      t.sent.map fun f => (f.bytes.length, (txLenField f.word).toNat)) =
        some [(60, 60), (100, 124)] := by decide +kernel
  refine ⟨hes, ?_⟩
  intro hall
  obtain ⟨t, ht, he⟩ := Option.map_eq_some_iff.mp hes
  have hmem : (100, 124) ∈ t.sent.map fun f => (f.bytes.length, (txLenField f.word).toNat) := by
    rw [he]
    decide
  obtain ⟨f, hf, hpair⟩ := List.mem_map.mp hmem
  rw [Prod.mk.injEq] at hpair
  have hlength := (hall.of_run ht f hf).length
  rw [hpair.2, toWrite, hpair.1] at hlength
  exact absurd hlength (by decide)

end Expt
