import NanoCell.Expt.Handler

/-!
# Writers of the expt DMA driver

`pkt_tx_busy` keeps the calls of `expt_write` off the one transmit buffer: a call counts itself
in, and goes on if it is alone. The count goes down again when a refused call rolls back, and when
the handler finds that the frame was sent. Calls run on several processors, and the handler and the
NIC run beside them, so each access to the count, the buffer and the descriptor is a step of its
own. Natural numbers and integers stand for the sizes and the count: a size is at most
`TX_PKT_SIZE` when it is used, and `busy_always` bounds the count by the calls that are executing.

## Main definitions

* `TxDev`, `TxDev.exptWrite`: the transmit fields of `dev_priv`, and `expt_write` as one call
* `Writers`, `writersStep`: the device with any number of calls, the handler and the NIC, and a
  record of who holds the buffer and of what was handed over
* `Writers.Exclusive`, `Unowned`: the buffer has one holder and is not written under the NIC
* `Writers.Accounted`: the invariant behind them

## Main results

* `write_alone`: with nothing in between, the steps of a call amount to `exptWrite`
* `Writers.Accounted.step`: the invariant over one step of anyone
* `exclusive_always`: one holder at a time, over every run
* `busy_always`: the count is at most one more than the calls that are executing
-/

namespace Expt

open Rtl8101 (Desc descOwn ringEnd firstFrag lastFrag hasBits)
open Transition

/-! ## The transmit half of the driver -/

/-- The device with `desc_tx` and the memory from `pkt_tx` on. -/
structure TxDev where
  dev : DevPriv
  descTx : Desc
  pktTx : ℕ → BitVec 8

/-- The results of `expt_write`: `-EBUSY`, `-EFAULT`, and the length of the call. -/
inductive WriteResult where
  | ebusy
  | efault
  | written (len : ℕ)
  deriving DecidableEq

/-- `copy_from_user` of `n` bytes: the memory after it, and the number of bytes that it could not
copy, which it clears. The source can be read up to `fault`, if that is given. -/
def copyFromUser (dst : ℕ → BitVec 8) (bytes : List (BitVec 8)) (n : ℕ) (fault : Option ℕ) :
    (ℕ → BitVec 8) × ℕ :=
  let readable := fault.elim n (min n)
  (fun k => if k < readable then bytes.getD k 0#8 else if k < n then 0#8 else dst k, n - readable)

/-- `to_write`, of a call for `bytes`. -/
def toWrite (bytes : List (BitVec 8)) : ℕ := min bytes.length pktSize

namespace TxDev

/-- The end of `setup_buffers`, for buffers mapped at `phyPktTx` and `phyPktRx`. -/
def setupBuffers (s : TxDev) (phyPktTx phyPktRx : BitVec 64) : TxDev :=
  { s with
    dev := s.dev.setupBuffers phyPktRx
    descTx := ⟨ringEnd ||| firstFrag ||| lastFrag, 0#32, phyPktTx⟩ }

/-- `atomic_inc` and `atomic_dec` of `pkt_tx_busy`. -/
def addBusy (s : TxDev) (k : ℤ) : TxDev :=
  { s with dev := { s.dev with pktTxBusy := s.dev.pktTxBusy + k } }

/-- The descriptor is given to the NIC with `n` bytes; what its word held stays in it. -/
def handOver (s : TxDev) (n : ℕ) : TxDev :=
  { s with descTx := { s.descTx with
    opts1 := s.descTx.opts1 ||| descOwn ||| BitVec.ofNat 32 n } }

/-- `expt_write` of `bytes`. -/
def exptWrite (s : TxDev) (bytes : List (BitVec 8)) (fault : Option ℕ) : TxDev × WriteResult :=
  let s := s.addBusy 1
  if s.dev.pktTxBusy ≠ 1 then (s.addBusy (-1), .ebusy)
  else
    let (pktTx, left) := copyFromUser s.pktTx bytes (toWrite bytes) fault
    let s := { s with pktTx := pktTx }
    -- the count is not given back
    if left ≠ 0 then (s, .efault)
    else (s.handOver (toWrite bytes), .written bytes.length)

/-- The NIC is done with the descriptor, and latches `bit`. It only clears `DescOwn`. -/
def nicDone (s : TxDev) (bit : BitVec 16) : Option TxDev :=
  if s.descTx.own = true then
    some { s with
      descTx := { s.descTx with opts1 := s.descTx.opts1 &&& ~~~descOwn }
      dev := s.dev.latch bit }
  else none

theorem nicDone_eq_some {s tx : TxDev} {bit : BitVec 16} (h : s.nicDone bit = some tx) :
    s.descTx.own = true ∧ tx = { s with
      descTx := { s.descTx with opts1 := s.descTx.opts1 &&& ~~~descOwn }
      dev := s.dev.latch bit } := by
  unfold nicDone at h
  split_ifs at h with hown
  exact ⟨hown, (Option.some.inj h).symm⟩

/-- The NIC latches causes that have nothing to do with the descriptor. -/
def latchOther (s : TxDev) (bits : BitVec 16) : TxDev :=
  { s with dev := s.dev.latch (bits &&& ~~~(intrTxOkBit ||| intrTxErr)) }

end TxDev

/-! ## Calls -/

/-- Where a call of `expt_write` stands: before `atomic_inc`, before `atomic_read`, before the
`atomic_dec` of a refused call, before `copy_from_user`, before the descriptor is written, before
the NIC is told, and at its end. -/
inductive WritePc where
  | entered
  | incremented
  | refused
  | passed
  | copied
  | handed
  | returned (r : WriteResult)
  deriving DecidableEq

/-- A call for `bytes`. -/
structure WriteCall where
  bytes : List (BitVec 8)
  pc : WritePc
  deriving DecidableEq

namespace WriteCall

/-- The call is counted in `pkt_tx_busy` and has not passed the check. -/
def counted (c : WriteCall) : Bool := c.pc = .incremented ∨ c.pc = .refused

/-- The call passed the check and has not handed the descriptor over: its next step writes the
buffer or the descriptor. -/
def filling (c : WriteCall) : Bool := c.pc = .passed ∨ c.pc = .copied

end WriteCall

/-- How far a call that passed the check is: it writes, its frame is at the NIC, its frame was
sent, or neither of these will ever be. -/
inductive Stage where
  | filling
  | onWire
  | done
  | lost
  deriving DecidableEq

/-- A frame as it was handed over: the bytes of the call, the word of the descriptor, and as many
bytes of `pkt_tx` as the call has for it. -/
structure Handed where
  bytes : List (BitVec 8)
  word : BitVec 32
  data : List (BitVec 8)
  deriving DecidableEq

/-- The device, the handler, and the calls made so far. The rest is a record of the run: the calls
that passed the check and whose completion was not counted down yet, and the frames handed over. -/
structure Writers where
  tx : TxDev
  handler : HandlerPc
  calls : List WriteCall
  holders : List (ℕ × Stage)
  sent : List Handed

/-- What happens to the device: a new call, the next step of the call `i`, a frame sent or given
up by the NIC, another cause, and the next step of the handler. -/
inductive WritersEvent where
  | call (bytes : List (BitVec 8))
  | write (i : ℕ) (fault : Option ℕ)
  | complete
  | fail
  | latchOther (bits : BitVec 16)
  | handler

namespace Writers

/-- The device after its set-up. -/
def start (tx : TxDev) : Writers := ⟨tx, .idle, [], [], []⟩

/-- The call `i` goes on to `pc`. -/
def goto (s : Writers) (i : ℕ) (pc : WritePc) : Writers :=
  { s with calls := s.calls.modify i fun c => { c with pc := pc } }

/-- The holder `i` is at the stage `st`. -/
def mark (s : Writers) (i : ℕ) (st : Stage) : Writers :=
  { s with holders := s.holders.map fun h => if h.1 = i then (i, st) else h }

/-- The frame at the NIC comes to the stage `st`. -/
def markWire (s : Writers) (st : Stage) : Writers :=
  { s with holders := s.holders.map fun h => if h.2 = .onWire then (h.1, st) else h }

/-- The next step of the call `i`. -/
def write (s : Writers) (i : ℕ) (c : WriteCall) (fault : Option ℕ) : Option Writers :=
  match c.pc with
  | .entered => some { s.goto i .incremented with tx := s.tx.addBusy 1 }
  | .incremented =>
    if s.tx.dev.pktTxBusy ≠ 1 then some (s.goto i .refused)
    else some { s.goto i .passed with holders := s.holders ++ [(i, .filling)] }
  | .refused => some { s.goto i (.returned .ebusy) with tx := s.tx.addBusy (-1) }
  | .passed =>
    let (pktTx, left) := copyFromUser s.tx.pktTx c.bytes (toWrite c.bytes) fault
    let t := { s with tx := { s.tx with pktTx := pktTx } }
    if left ≠ 0 then some ((t.goto i (.returned .efault)).mark i .lost)
    else some (t.goto i .copied)
  | .copied =>
    let t := { s with tx := s.tx.handOver (toWrite c.bytes) }
    some { (t.goto i .handed).mark i .onWire with
      sent := s.sent ++ [⟨c.bytes, t.tx.descTx.opts1,
        (List.range (toWrite c.bytes)).map s.tx.pktTx⟩] }
  | .handed => some (s.goto i (.returned (.written c.bytes.length)))
  | .returned _ => none

/-- The next step of the handler; when it counts down, the first completed holder is gone. -/
def handle (s : Writers) : Writers :=
  { s with
    tx := { s.tx with dev := (handlerStep s.tx.dev s.handler).1 }
    handler := (handlerStep s.tx.dev s.handler).2
    holders := if s.handler.inTx then s.holders.eraseP fun h => h.2 = .done else s.holders }

end Writers

/-- One step of the system. -/
def writersStep (s : Writers) : WritersEvent → Option Writers
  | .call bytes => some { s with calls := s.calls ++ [⟨bytes, .entered⟩] }
  | .write i fault => (s.calls[i]?).bind fun c => s.write i c fault
  | .complete => (s.tx.nicDone intrTxOkBit).map fun tx => { s.markWire .done with tx := tx }
  | .fail => (s.tx.nicDone intrTxErr).map fun tx => { s.markWire .lost with tx := tx }
  | .latchOther bits => some { s with tx := s.tx.latchOther bits }
  | .handler => some s.handle

/-! ## A call alone -/

theorem modify_last {α : Type*} (f : α → α) (l : List α) (a : α) :
    (l ++ [a]).modify l.length f = l ++ [f a] := by
  induction l with
  | nil => rfl
  | cons b l ih => simp [ih]

namespace Writers

/-- With nothing in between, the last of the calls comes to its end as `c` and leaves the
device as `tx`. -/
def Finishes (s : Writers) (cs : List WriteCall) (fault : Option ℕ) (tx : TxDev)
    (c : WriteCall) : Prop :=
  ∃ n t, run writersStep s (List.replicate n (.write cs.length fault)) = some t ∧ t.tx = tx ∧
    t.handler = s.handler ∧ t.calls = cs ++ [c]

variable {s s' : Writers} {cs : List WriteCall} {fault : Option ℕ} {tx : TxDev} {c d : WriteCall}

theorem finishes_self (hcalls : s.calls = cs ++ [d]) (htx : s.tx = tx) :
    s.Finishes cs fault tx d :=
  ⟨0, s, rfl, htx, rfl, hcalls⟩

theorem Finishes.of_write (h : s'.Finishes cs fault tx d) (hcalls : s.calls = cs ++ [c])
    (hstep : s.write cs.length c fault = some s') (hhandler : s'.handler = s.handler) :
    s.Finishes cs fault tx d := by
  obtain ⟨n, t, hrun, htx, hidle, hend⟩ := h
  refine ⟨n + 1, t, ?_, htx, hidle.trans hhandler, hend⟩
  rw [List.replicate_succ, run_cons (t := s') ?_ _, hrun]
  simp [writersStep, hcalls, hstep]

theorem goto_last (hcalls : s.calls = cs ++ [c]) (pc : WritePc) :
    (s.goto cs.length pc).calls = cs ++ [{ c with pc := pc }] := by
  simp only [goto, hcalls, modify_last]

/-- From the copy on. -/
theorem finishes_passed (hcalls : s.calls = cs ++ [c]) (hpc : c.pc = .passed)
    (hbusy : s.tx.dev.pktTxBusy = 1) :
    s.Finishes cs fault ((s.tx.addBusy (-1)).exptWrite c.bytes fault).1
      ⟨c.bytes, .returned ((s.tx.addBusy (-1)).exptWrite c.bytes fault).2⟩ := by
  have hin : (s.tx.addBusy (-1)).addBusy 1 = s.tx := by simp [TxDev.addBusy]
  obtain ⟨u, hu⟩ : ∃ u : Writers, u = { s with tx := { s.tx with
    pktTx := (copyFromUser s.tx.pktTx c.bytes (toWrite c.bytes) fault).1 } } := ⟨_, rfl⟩
  have hucalls : u.calls = cs ++ [c] := by rw [hu, hcalls]
  have huhandler : u.handler = s.handler := by rw [hu]
  simp only [TxDev.exptWrite, hin, hbusy, ne_eq, not_true_eq_false, if_false]
  by_cases hleft : (copyFromUser s.tx.pktTx c.bytes (toWrite c.bytes) fault).2 = 0
  · have hcopy : s.write cs.length c fault = some (u.goto cs.length .copied) := by
      simp [write, hpc, hleft, hu]
    simp only [hleft, not_true_eq_false, if_false]
    refine Finishes.of_write ?_ hcalls hcopy huhandler
    refine Finishes.of_write ?_ (goto_last hucalls _) rfl rfl
    refine Finishes.of_write ?_ (goto_last (goto_last hucalls _) _) rfl rfl
    exact finishes_self (goto_last (goto_last (goto_last hucalls _) _) _) (by rw [hu]; rfl)
  · have hcopy : s.write cs.length c fault =
        some ((u.goto cs.length (.returned .efault)).mark cs.length .lost) := by
      simp [write, hpc, hleft, hu]
    simp only [hleft, not_false_eq_true, if_true]
    refine Finishes.of_write ?_ hcalls hcopy huhandler
    exact finishes_self (goto_last hucalls _) (by rw [hu]; rfl)

/-- **A call alone**: with nothing in between, the steps of a call amount to `exptWrite`. -/
theorem write_alone (s : Writers) (bytes : List (BitVec 8)) (fault : Option ℕ) :
    ∃ n t, run writersStep s (.call bytes :: List.replicate n (.write s.calls.length fault)) =
        some t ∧
      t.tx = (s.tx.exptWrite bytes fault).1 ∧ t.handler = s.handler ∧
      t.calls = s.calls ++ [⟨bytes, .returned (s.tx.exptWrite bytes fault).2⟩] := by
  obtain ⟨u, hu⟩ : ∃ u : Writers, u = { s with
    calls := s.calls ++ [⟨bytes, .incremented⟩], tx := s.tx.addBusy 1 } := ⟨_, rfl⟩
  have hucalls : u.calls = s.calls ++ [⟨bytes, .incremented⟩] := by rw [hu]
  have hback : u.tx.addBusy (-1) = s.tx := by simp [hu, TxDev.addBusy]
  have hchecked : u.Finishes s.calls fault (s.tx.exptWrite bytes fault).1
      ⟨bytes, .returned (s.tx.exptWrite bytes fault).2⟩ := by
    by_cases hbusy : u.tx.dev.pktTxBusy = 1
    · have hpass : u.write s.calls.length ⟨bytes, .incremented⟩ fault =
          some { u.goto s.calls.length .passed with
            holders := u.holders ++ [(s.calls.length, .filling)] } := if_neg (not_not.mpr hbusy)
      refine Finishes.of_write ?_ hucalls hpass rfl
      rw [← hback]
      exact finishes_passed (s := { u.goto s.calls.length .passed with
        holders := u.holders ++ [(s.calls.length, .filling)] })
        (goto_last hucalls .passed) rfl hbusy
    · have hrefused : s.tx.exptWrite bytes fault = (u.tx.addBusy (-1), .ebusy) := by
        simp only [TxDev.exptWrite]
        rw [if_pos (by rwa [hu] at hbusy), hu]
      rw [hrefused]
      refine Finishes.of_write ?_ hucalls (if_pos hbusy) rfl
      refine Finishes.of_write ?_ (goto_last hucalls _) rfl rfl
      exact finishes_self (goto_last (goto_last hucalls _) _) rfl
  obtain ⟨n, t, hrun, htx, hhandler, hcalls⟩ := hchecked
  refine ⟨n + 1, t, ?_, htx, hhandler.trans (by rw [hu]), hcalls⟩
  rw [run_cons rfl, List.replicate_succ, run_cons (t := u) ?_ _, hrun]
  simp [writersStep, write, goto, modify_last, hu]

end Writers

/-! ## One holder at a time -/

theorem countP_modify {α : Type*} (p : α → Bool) (f : α → α) {l : List α} {i : ℕ} {a : α}
    (h : l[i]? = some a) :
    (l.modify i f).countP p + (p a).toNat = l.countP p + (p (f a)).toNat := by
  induction l generalizing i with
  | nil => cases h
  | cons b l ih =>
    cases i with
    | zero =>
      simp only [List.getElem?_cons_zero, Option.some.injEq] at h
      subst h
      simp only [List.modify_zero_cons, List.countP_cons]
      cases p b <;> cases p (f b) <;> simp
    | succ i =>
      have hl := ih (i := i) h
      simp only [List.modify_succ_cons, List.countP_cons]
      omega

theorem eq_singleton_of_mem {α : Type*} {l : List α} {a : α} (ha : a ∈ l) (hl : l.length ≤ 1) :
    l = [a] := by
  obtain ⟨b, rfl⟩ := List.length_eq_one_iff.mp (le_antisymm hl (List.length_pos_of_mem ha))
  rw [List.mem_singleton.mp ha]

namespace Writers

/-- At most one call is between the check that it passed and the `atomic_dec` of its completion,
and the count is not negative. -/
structure Exclusive (s : Writers) : Prop where
  alone : s.holders.length ≤ 1
  busy : 0 ≤ s.tx.dev.pktTxBusy

/-- The count is the number of calls that are counted and did not pass the check, and of the
holders. The stage of the holder shows in the calls, in the descriptor, and in the interrupt. -/
structure Accounted (s : Writers) : Prop where
  busy : s.tx.dev.pktTxBusy = s.calls.countP WriteCall.counted + s.holders.length
  alone : s.holders.length ≤ 1
  filling : ∀ i, (i, Stage.filling) ∈ s.holders ↔ ∃ c, s.calls[i]? = some c ∧ c.filling = true
  onWire : s.tx.descTx.own = true ↔ ∃ i, (i, Stage.onWire) ∈ s.holders
  done : s.holders.countP (fun h => h.2 = .done) = txPending s.tx.dev s.handler
  ack : s.handler.ToAckTx → s.tx.dev.Latched intrTxOkBit

variable {s t : Writers} {i : ℕ} {c : WriteCall} {pc : WritePc}

theorem Accounted.exclusive (h : s.Accounted) : s.Exclusive := by
  refine ⟨h.alone, ?_⟩
  rw [h.busy]
  omega

/-- The call that writes is the only holder. -/
theorem Accounted.holder (h : s.Accounted) (hc : s.calls[i]? = some c) (hfill : c.filling = true) :
    s.holders = [(i, .filling)] :=
  eq_singleton_of_mem ((h.filling i).mpr ⟨c, hc, hfill⟩) h.alone

/-- **The writer and the NIC** do not meet: a call that is about to write finds `DescOwn` clear. -/
theorem Accounted.unowned (h : s.Accounted) (hc : s.calls[i]? = some c)
    (hfill : c.filling = true) : s.tx.descTx.own = false := by
  rw [← Bool.not_eq_true, h.onWire, h.holder hc hfill]
  simp

theorem countP_goto (hc : s.calls[i]? = some c) (pc : WritePc) :
    (s.goto i pc).calls.countP WriteCall.counted + c.counted.toNat =
      s.calls.countP WriteCall.counted + (WriteCall.counted ⟨c.bytes, pc⟩).toNat :=
  countP_modify _ _ hc

theorem filling_goto (hc : s.calls[i]? = some c) (j : ℕ) :
    (∃ d, (s.goto i pc).calls[j]? = some d ∧ d.filling = true) ↔
      if j = i then WriteCall.filling ⟨c.bytes, pc⟩ = true
      else ∃ d, s.calls[j]? = some d ∧ d.filling = true := by
  split_ifs with hj
  · subst hj
    simp [goto, hc]
  · simp [goto, List.getElem?_modify_ne _ _ (Ne.symm hj)]

/-- A call goes on without becoming a holder or ceasing to be one. -/
theorem Accounted.goto (h : s.Accounted) (hc : s.calls[i]? = some c)
    (hfill : WriteCall.filling ⟨c.bytes, pc⟩ = c.filling) {tx : TxDev}
    (hbusy : tx.dev.pktTxBusy + c.counted.toNat =
      s.tx.dev.pktTxBusy + (WriteCall.counted ⟨c.bytes, pc⟩).toNat)
    (hdesc : tx.descTx = s.tx.descTx) (hst : tx.dev.intrStatus = s.tx.dev.intrStatus) :
    Accounted { s.goto i pc with tx := tx } := by
  have hlatched : ∀ bits, tx.dev.Latched bits ↔ s.tx.dev.Latched bits := by
    intro bits
    rw [DevPriv.Latched, DevPriv.Latched, hst]
  refine ⟨?_, h.alone, ?_, ?_, ?_, ?_⟩
  · have hcount := countP_goto hc pc
    have hs := h.busy
    dsimp only [Writers.goto] at hcount ⊢
    omega
  · intro j
    refine (h.filling j).trans (.trans ?_ (filling_goto hc j).symm)
    split_ifs with hj
    · subst hj
      simp [hc, hfill]
    · rfl
  · exact hdesc ▸ h.onWire
  · refine h.done.trans ?_
    simp only [txPending, hlatched, Writers.goto]
  · exact fun hack => (hlatched _).mpr (h.ack hack)

/-- The call that writes is done with it: the copy failed, or the frame is at the NIC. -/
theorem Accounted.leave (h : s.Accounted) (hc : s.calls[i]? = some c) (hfill : c.filling = true)
    (pc : WritePc) (st : Stage) (tx : TxDev) (sent : List Handed)
    (hpc : WriteCall.filling ⟨c.bytes, pc⟩ = false)
    (hpc' : WriteCall.counted ⟨c.bytes, pc⟩ = false) (hst : st ≠ .filling) (hst' : st ≠ .done)
    (hdev : tx.dev = s.tx.dev) (hown : tx.descTx.own = true ↔ st = .onWire) :
    Accounted { (s.goto i pc).mark i st with tx := tx, sent := sent } := by
  have hholders := h.holder hc hfill
  have hmark : ((s.goto i pc).mark i st).holders = [(i, st)] := by
    simp [mark, Writers.goto, hholders]
  have hcounted : c.counted = false := by
    revert hfill
    simp only [WriteCall.filling, WriteCall.counted]
    cases c.pc <;> simp
  refine ⟨?_, by simp [hmark], ?_, ?_, ?_, ?_⟩
  · have hcount := countP_goto hc pc
    have hs := h.busy
    rw [hcounted, hpc'] at hcount
    rw [hholders] at hs
    simp only [hmark, hdev, hs]
    exact congrArg (fun n : ℕ => (n : ℤ) + _) hcount.symm
  · intro j
    rw [hmark]
    refine .trans ?_ (filling_goto hc j).symm
    have hother := h.filling j
    rw [hholders] at hother
    split_ifs with hj
    · simp [hpc, hst.symm]
    · rw [← hother]
      simp [hj]
  · rw [hown, hmark]
    simp [eq_comm]
  · refine .trans ?_ (h.done.trans ?_)
    · rw [hmark, hholders]
      simp [hst']
    · rw [hdev]
      rfl
  · rw [hdev]
    exact h.ack

/-- The check is passed by a call that is alone. -/
theorem Accounted.pass (h : s.Accounted) (hc : s.calls[i]? = some c) (hpc : c.pc = .incremented)
    (hbusy : s.tx.dev.pktTxBusy = 1) :
    Accounted { s.goto i .passed with holders := s.holders ++ [(i, .filling)] } := by
  have hcounted : c.counted = true := by simp [WriteCall.counted, hpc]
  have hcount := countP_goto hc .passed
  rw [hcounted] at hcount
  have hs := h.busy
  have hzero : (WriteCall.counted ⟨c.bytes, .passed⟩).toNat = 0 := rfl
  have htrue : true.toNat = 1 := rfl
  have hempty : s.holders = [] := List.length_eq_zero_iff.mp (by omega)
  rw [hempty] at hs
  have hdone := h.done
  rw [hempty] at hdone
  have hnotWire := h.onWire
  rw [hempty] at hnotWire
  refine ⟨?_, by simp [hempty], ?_, ?_, ?_, h.ack⟩
  · simp only [hempty, List.nil_append, List.length_singleton]
    rw [hzero] at hcount
    show s.tx.dev.pktTxBusy = _
    simp only [List.length_nil] at hs
    omega
  · intro j
    refine .trans ?_ (filling_goto hc j).symm
    have hother := h.filling j
    simp only [hempty, List.not_mem_nil, false_iff] at hother
    split_ifs with hj
    · simp [hempty, hj, WriteCall.filling]
    · simp [hempty, hj, hother]
  · refine hnotWire.trans ?_
    simp [hempty]
  · refine .trans ?_ hdone
    simp [hempty]

theorem Accounted.write (h : s.Accounted) (hc : s.calls[i]? = some c) {fault : Option ℕ}
    (hstep : s.write i c fault = some t) : t.Accounted := by
  unfold Writers.write at hstep
  split at hstep
  · next hpc =>
    cases hstep
    exact h.goto hc (by simp [WriteCall.filling, hpc])
      (by simp [WriteCall.counted, hpc, TxDev.addBusy]) rfl rfl
  · next hpc =>
    split_ifs at hstep with hbusy
    · cases hstep
      exact h.goto hc (by simp [WriteCall.filling, hpc]) (by simp [WriteCall.counted, hpc]) rfl rfl
    · cases hstep
      exact h.pass hc hpc (not_not.mp hbusy)
  · next hpc =>
    cases hstep
    exact h.goto hc (by simp [WriteCall.filling, hpc])
      (by simp [WriteCall.counted, hpc, TxDev.addBusy]) rfl rfl
  · next hpc =>
    have hfill : c.filling = true := by simp [WriteCall.filling, hpc]
    dsimp only at hstep
    split_ifs at hstep
    · cases hstep
      have hown := h.unowned hc hfill
      have hlost : s.tx.descTx.own = true ↔ Stage.lost = .onWire := by simp [hown]
      exact h.leave hc hfill (.returned .efault) .lost { s.tx with pktTx := _ } s.sent rfl rfl
        (by decide) (by decide) rfl hlost
    · cases hstep
      exact h.goto hc (by simp [WriteCall.filling, hpc]) (by simp [WriteCall.counted, hpc]) rfl rfl
  · next hpc =>
    cases hstep
    have hfill : c.filling = true := by simp [WriteCall.filling, hpc]
    have hwire : (s.tx.handOver (toWrite c.bytes)).descTx.own = true ↔ Stage.onWire = .onWire := by
      simp [Rtl8101.Desc.own, Rtl8101.hasBits_or, TxDev.handOver,
        Rtl8101.hasBits_self Rtl8101.isFlag_descOwn]
    exact h.leave hc hfill .handed .onWire (s.tx.handOver _) _ rfl rfl (by decide) (by decide) rfl
      hwire
  · next hpc =>
    cases hstep
    exact h.goto hc (by simp [WriteCall.filling, hpc]) (by simp [WriteCall.counted, hpc]) rfl rfl
  · cases hstep

/-- A new call is at its beginning. -/
theorem Accounted.call (h : s.Accounted) (bytes : List (BitVec 8)) :
    Accounted { s with calls := s.calls ++ [⟨bytes, .entered⟩] } := by
  refine { h with busy := ?_, filling := ?_ }
  · rw [h.busy, List.countP_append]
    simp [WriteCall.counted]
  · intro j
    rw [h.filling j]
    refine exists_congr ?_
    intro d
    dsimp only
    rcases lt_or_ge j s.calls.length with hj | hj
    · rw [List.getElem?_append_left hj]
    · rw [List.getElem?_append_right hj, List.getElem?_eq_none hj]
      cases hk : j - s.calls.length with
      | zero =>
        simp only [List.getElem?_cons_zero, Option.some.injEq, reduceCtorEq, false_and, false_iff,
          not_and]
        rintro rfl
        simp [WriteCall.filling]
      | succ k => simp

/-- The frame at the NIC is that of the only holder. -/
theorem Accounted.wire (h : s.Accounted) (hown : s.tx.descTx.own = true) :
    ∃ j, s.holders = [(j, .onWire)] := by
  obtain ⟨j, hj⟩ := h.onWire.mp hown
  exact ⟨j, eq_singleton_of_mem hj h.alone⟩

theorem own_clear (d : Desc) : ({ d with opts1 := d.opts1 &&& ~~~descOwn } : Desc).own = false := by
  simp [Rtl8101.Desc.own, Rtl8101.hasBits_and Rtl8101.isFlag_descOwn,
    Rtl8101.hasBits_not Rtl8101.isFlag_descOwn, Rtl8101.hasBits_self Rtl8101.isFlag_descOwn]

/-- The NIC is done with the descriptor. -/
theorem Accounted.nicDone (h : s.Accounted) {bit : BitVec 16} {st : Stage} {tx : TxDev}
    (htx : s.tx.nicDone bit = some tx)
    (hst : (bit = intrTxOkBit ∧ st = .done) ∨ (bit = intrTxErr ∧ st = .lost)) :
    Accounted { s.markWire st with tx := tx } := by
  obtain ⟨hown, rfl⟩ := TxDev.nicDone_eq_some htx
  obtain ⟨j, hholders⟩ := h.wire hown
  have hmark : (s.markWire st).holders = [(j, st)] := by simp [markWire, hholders]
  have hdone := h.done
  rw [hholders] at hdone
  refine ⟨?_, by simp [hmark], ?_, ?_, ?_, ?_⟩
  · refine h.busy.trans ?_
    rw [hmark, hholders]
    rfl
  · intro k
    rw [hmark]
    refine .trans ?_ (h.filling k)
    rw [hholders]
    rcases hst with ⟨-, rfl⟩ | ⟨-, rfl⟩ <;> simp
  · rw [hmark, own_clear]
    rcases hst with ⟨-, rfl⟩ | ⟨-, rfl⟩ <;> simp
  · rw [hmark]
    -- nothing was pending while the NIC had the frame
    have hnone : txPending s.tx.dev s.handler = 0 := hdone.symm
    rcases hst with ⟨rfl, rfl⟩ | ⟨rfl, rfl⟩
    · exact (txPending_latch hnone).symm
    · have herr : (s.tx.dev.latch intrTxErr).Latched intrTxOkBit ↔ s.tx.dev.Latched intrTxOkBit :=
        DevPriv.latch_latched (by decide)
      exact ((txPending_congr herr).trans hnone).symm
  · exact fun hack => (h.ack hack).latch bit

/-- A cause that has nothing to do with the descriptor is latched. -/
theorem Accounted.latchOther (h : s.Accounted) (bits : BitVec 16) :
    Accounted { s with tx := s.tx.latchOther bits } := by
  have hother : (bits &&& ~~~(intrTxOkBit ||| intrTxErr)) &&& intrTxOkBit = 0#16 := by
    rw [BitVec.and_assoc, show ~~~(intrTxOkBit ||| intrTxErr) &&& intrTxOkBit = 0#16 by decide,
      BitVec.and_zero]
  have hlatched := DevPriv.latch_latched (s := s.tx.dev) hother
  exact { h with
    done := h.done.trans (txPending_congr hlatched).symm
    ack := fun hack => hlatched.mpr (h.ack hack) }

/-- A step of the handler: the holder whose frame was sent is gone when the count goes down. -/
theorem Accounted.handle (h : s.Accounted) : s.handle.Accounted := by
  have hdesc : s.handle.tx.descTx = s.tx.descTx := rfl
  have hack := handlerStep_toAckTx h.ack
  rcases handlerStep_txPending h.ack with ⟨hbusy, hpc, hpend⟩ | ⟨hbusy, hpc, hpend⟩
  · have hholders : s.handle.holders = s.holders := by simp [Writers.handle, hpc]
    refine ⟨?_, ?_, ?_, ?_, ?_, hack⟩
    · rw [hholders]
      exact hbusy.trans h.busy
    · rw [hholders]
      exact h.alone
    · rw [hholders]
      exact h.filling
    · rw [hholders]
      exact h.onWire
    · rw [hholders]
      exact h.done.trans hpend.symm
  · have hpos : 0 < s.holders.countP fun x => x.2 = .done := by
      rw [h.done]
      omega
    obtain ⟨⟨j, st⟩, hj, hdone⟩ := List.countP_pos_iff.mp hpos
    obtain rfl : st = .done := by simpa using hdone
    have hone := eq_singleton_of_mem hj h.alone
    have hholders : s.handle.holders = [] := by simp [Writers.handle, hpc, hone]
    have hs := h.busy
    have hcount := h.done
    rw [hone] at hs hcount
    refine ⟨?_, ?_, ?_, ?_, ?_, hack⟩
    · rw [hholders]
      refine hbusy.trans ?_
      rw [hs]
      simp [Writers.handle]
    · simp [hholders]
    · intro k
      rw [hholders]
      refine .trans ?_ (h.filling k)
      simp [hone]
    · rw [hholders, hdesc, h.onWire, hone]
      simp
    · rw [hholders]
      simp only [List.countP_nil]
      simp at hcount
      show 0 = txPending (handlerStep s.tx.dev s.handler).1 (handlerStep s.tx.dev s.handler).2
      omega

theorem Accounted.step {e : WritersEvent} (h : s.Accounted) (hstep : writersStep s e = some t) :
    t.Accounted := by
  cases e with
  | call bytes =>
    cases hstep
    exact h.call bytes
  | write i fault =>
    obtain ⟨c, hc, hwrite⟩ := Option.bind_eq_some_iff.mp hstep
    exact h.write hc hwrite
  | complete =>
    obtain ⟨tx, htx, rfl⟩ := Option.map_eq_some_iff.mp hstep
    exact h.nicDone htx (.inl ⟨rfl, rfl⟩)
  | fail =>
    obtain ⟨tx, htx, rfl⟩ := Option.map_eq_some_iff.mp hstep
    exact h.nicDone htx (.inr ⟨rfl, rfl⟩)
  | latchOther bits =>
    cases hstep
    exact h.latchOther bits
  | handler =>
    cases hstep
    exact h.handle

theorem accounted_start {tx : TxDev} (hok : ¬ tx.dev.Latched intrTxOkBit)
    (phyPktTx phyPktRx : BitVec 64) : (start (tx.setupBuffers phyPktTx phyPktRx)).Accounted := by
  have hpend : txPending (tx.dev.setupBuffers phyPktRx) .idle = 0 := by
    have hset : ¬ (tx.dev.setupBuffers phyPktRx).Latched intrTxOkBit := hok
    rw [txPending, if_neg hset]
    rfl
  refine ⟨rfl, by simp [start], ?_, ?_, hpend.symm, ?_⟩
  · simp [start]
  · have hown : (tx.setupBuffers phyPktTx phyPktRx).descTx.own = false := by
      simp [TxDev.setupBuffers, Rtl8101.Desc.own]
      decide
    simp [start, hown]
  · exact False.elim

end Writers

/-- A call that writes `pkt_tx` or `desc_tx` in its next step finds `DescOwn` clear. -/
def Unowned (s : Writers) : WritersEvent → Prop
  | .write i _ => ∀ c ∈ s.calls[i]?, c.filling = true → s.tx.descTx.own = false
  | _ => True

/-- **One holder at a time**: after the set-up, whatever the order of the steps of any number of
calls, of the handler and of the NIC, at most one call is between the check that it passed and the
`atomic_dec` of its completion, no call writes the buffer or the descriptor under the NIC, and the
count is not negative. -/
theorem exclusive_always {tx : TxDev} (hok : ¬ tx.dev.Latched intrTxOkBit)
    (phyPktTx phyPktRx : BitVec 64) (es : List WritersEvent) :
    Always writersStep Writers.Exclusive (.start (tx.setupBuffers phyPktTx phyPktRx)) es ∧
      Along writersStep Unowned (.start (tx.setupBuffers phyPktTx phyPktRx)) es := by
  have hstart := Writers.accounted_start hok phyPktTx phyPktRx
  have hstep : ∀ s e t, Writers.Accounted s → writersStep s e = some t → t.Accounted :=
    fun _ _ _ h hst => h.step hst
  refine ⟨(always_of_step hstep hstart es).mono fun _ h => h.exclusive, ?_⟩
  refine along_of_step hstep ?_ hstart es
  intro s e t h _
  cases e with
  | write i fault => exact fun c hc hfill => h.unowned hc hfill
  | call | complete | fail | latchOther | handler => trivial

/-- The device when the module is loaded. -/
def TxDev.loaded : TxDev := ⟨.loaded, .zero, fun _ => 0#8⟩

/-- Two calls count themselves in before either of them looks; both are refused, and a third one
is not. -/
theorem exclusive_always_three :
    ¬ TxDev.loaded.dev.Latched intrTxOkBit ∧
      Always writersStep Writers.Exclusive (.start (TxDev.loaded.setupBuffers 0x1000#64 0x2000#64))
        [.call [1#8], .call [2#8], .write 0 none, .write 1 none, .write 0 none, .write 1 none,
          .write 0 none, .write 1 none, .call [3#8], .write 2 none, .write 2 none, .write 2 none,
          .write 2 none, .complete, .handler] ∧
      Along writersStep Unowned (.start (TxDev.loaded.setupBuffers 0x1000#64 0x2000#64))
        [.call [1#8], .call [2#8], .write 0 none, .write 1 none, .write 0 none, .write 1 none,
          .write 0 none, .write 1 none, .call [3#8], .write 2 none, .write 2 none, .write 2 none,
          .write 2 none, .complete, .handler] :=
  ⟨by decide, exclusive_always (by decide) _ _ _⟩

/-- The call has not returned. -/
def WriteCall.executing (c : WriteCall) : Bool :=
  match c.pc with
  | .returned _ => false
  | _ => true

/-- The count is at most the number of calls that are executing and one frame. -/
theorem Writers.Accounted.busy_le {s : Writers} (h : s.Accounted) :
    s.tx.dev.pktTxBusy ≤ s.calls.countP WriteCall.executing + 1 := by
  have hle : s.calls.countP WriteCall.counted ≤ s.calls.countP WriteCall.executing := by
    refine List.countP_mono_left ?_
    intro c _ hc
    simp only [WriteCall.counted, decide_eq_true_eq] at hc
    rcases hc with hpc | hpc <;> simp [WriteCall.executing, hpc]
  have hs := h.busy
  have halone := h.alone
  omega

/-- **The count in every run**: after the set-up it is never negative, and never more than one above
the number of calls that are executing. -/
theorem busy_always {tx : TxDev} (hok : ¬ tx.dev.Latched intrTxOkBit)
    (phyPktTx phyPktRx : BitVec 64) (es : List WritersEvent) :
    Always writersStep
      (fun s => 0 ≤ s.tx.dev.pktTxBusy ∧
        s.tx.dev.pktTxBusy ≤ s.calls.countP WriteCall.executing + 1)
      (.start (tx.setupBuffers phyPktTx phyPktRx)) es := by
  have hstart := Writers.accounted_start hok phyPktTx phyPktRx
  have hstep : ∀ s e t, Writers.Accounted s → writersStep s e = some t → t.Accounted :=
    fun _ _ _ h hst => h.step hst
  refine (always_of_step hstep hstart es).mono ?_
  intro s h
  refine ⟨?_, h.busy_le⟩
  rw [h.busy]
  omega

end Expt
