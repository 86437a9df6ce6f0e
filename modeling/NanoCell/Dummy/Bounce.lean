import NanoCell.Dummy.Ping

/-!
# Replies are answered too

`dummy_eth_rx` does not look at the ICMP type, so it answers a reply like a ping. The second answer
restores the frame that was received, but for the type and the checksum, and from then on two frames
alternate: a reply that comes back to the device bounces without end.

## Main definitions

* `answers e n skb`: the frame after `n` answers, each to the one before
* `Restored`: a frame with its addresses as they were received

## Main results

* `answers_bounce`: the answers to an ICMP frame alternate between a reply and the frame received
-/

namespace Dummy

/-- The frame that is passed up for a buffer. -/
def Outcome.frame : Outcome → Option SkBuff
  | .pushed skb => some skb
  | _ => none

/-- The frame after `n` answers on a host of the byte order `e`, each to the frame before. -/
def answers (e : ByteOrder) : ℕ → SkBuff → Option SkBuff
  | 0, skb => some skb
  | n + 1, skb => (dummyEthRx e (some skb)).frame.bind (answers e n)

/-- The frame `skb'` is `skb` with the type of a reply and a checksum that verifies. -/
structure Restored (skb skb' : SkBuff) : Prop where
  others : ∀ a : ℤ, a ≠ ethHlen + 4 * ihl skb.data ethHlen →
    (a < ethHlen + 4 * ihl skb.data ethHlen + 2 ∨ ethHlen + 4 * ihl skb.data ethHlen + 4 ≤ a) →
    skb'.data a = skb.data a
  type : skb'.data (ethHlen + 4 * ihl skb.data ethHlen) = icmpEchoReply
  icmp : ∀ e, Verifies e (skb'.data.load (ethHlen + 4 * ihl skb.data ethHlen))
    (totLen skb.data ethHlen - 4 * ihl skb.data ethHlen)
  len : skb'.len = skb.len
  network : skb'.networkHeader = skb.networkHeader
  transport : skb'.transportHeader = skb.transportHeader

/-! ## The bytes of a second reply -/

section Bytes

variable {e : ByteOrder} {m m' : Memory (BitVec 8)} {icmph a : ℤ}

/-- The exchanges of the addresses undo themselves, and keep away from the ICMP header. -/
theorem mangledFrom_mangledFrom (a : ℤ) : mangledFrom ethHlen (mangledFrom ethHlen a) = a := by
  simp only [mangledFrom, Memory.exchanged, ethHlen, ethAlen]
  split_ifs <;> omega

theorem mangledFrom_lt (ha : a < ethHlen + 20) : mangledFrom ethHlen a < ethHlen + 20 := by
  simp only [mangledFrom, Memory.exchanged, ethHlen, ethAlen] at *
  split_ifs <;> omega

/-- Two answers give a byte back that is not of the ICMP type or checksum. -/
theorem reply_reply_of_ne (hicmph : (ethHlen + 20 : ℤ) ≤ icmph) (ha : a ≠ icmph)
    (ha' : a < icmph + 2 ∨ icmph + 4 ≤ a) :
    reply e (reply e m ethHlen icmph) ethHlen icmph a = m a := by
  rw [reply_of_ne ha', mangle_of_ne ha ha']
  by_cases hlt : a < ethHlen + 20
  · have hfrom := mangledFrom_lt hlt
    rw [reply_of_ne (by omega), mangle_of_ne (by omega) (by omega), mangledFrom_mangledFrom]
  · have hsame : mangledFrom ethHlen a = a :=
      mangledFrom_outside (by simp only [ethAlen, ethHlen] at *; omega) (by omega)
    rw [hsame, reply_of_ne ha', mangle_of_ne ha ha', hsame]

/-- The message that the checksum is computed over depends on the bytes behind the checksum only. -/
theorem load_mangle_congr (hicmph : (ethHlen + 20 : ℤ) ≤ icmph)
    (h : ∀ a, icmph < a → (a < icmph + 2 ∨ icmph + 4 ≤ a) → m' a = m a) :
    (mangle m' ethHlen icmph).load icmph = (mangle m ethHlen icmph).load icmph := by
  funext k
  simp only [Memory.load]
  rcases eq_or_ne k 0 with rfl | hk
  · rw [Nat.cast_zero, add_zero, mangle_type, mangle_type]
  by_cases hcheck : icmph + k < icmph + 2 ∨ icmph + 4 ≤ icmph + k
  · have hsame : mangledFrom ethHlen (icmph + k) = icmph + k :=
      mangledFrom_outside (by simp only [ethAlen, ethHlen] at *; omega) (by omega)
    rw [mangle_of_ne (by omega) hcheck, mangle_of_ne (by omega) hcheck, hsame,
      h _ (by omega) hcheck]
  · rw [mangle_check (by omega) (by omega), mangle_check (by omega) (by omega)]

theorem csumLen_congr (h : ∀ a : ℤ, ethHlen ≤ a → a < ethHlen + 4 → m' a = m a) :
    csumLen m' ethHlen = csumLen m ethHlen := by
  simp only [csumLen, totLen, ihl]
  rw [h _ (by omega) (by omega), h _ (by omega) (by omega), h _ (by omega) (by omega)]

/-- **The third answer** is the first one. -/
theorem reply_reply_reply (hicmph : (ethHlen + 20 : ℤ) ≤ icmph) :
    reply e (reply e (reply e m ethHlen icmph) ethHlen icmph) ethHlen icmph =
      reply e m ethHlen icmph := by
  have hrestored : ∀ a, a ≠ icmph → (a < icmph + 2 ∨ icmph + 4 ≤ a) →
      reply e (reply e m ethHlen icmph) ethHlen icmph a = m a :=
    fun a ha ha' => reply_reply_of_ne hicmph ha ha'
  have hload := load_mangle_congr (m := m) hicmph fun a ha ha' => hrestored a (by omega) ha'
  have hlen : csumLen (reply e (reply e m ethHlen icmph) ethHlen icmph) ethHlen =
      csumLen m ethHlen :=
    csumLen_congr fun a ha ha' => hrestored a (by omega) (by omega)
  generalize hm'' : reply e (reply e m ethHlen icmph) ethHlen icmph = m'' at *
  funext a
  by_cases hcheck : a < icmph + 2 ∨ icmph + 4 ≤ a
  · rcases eq_or_ne a icmph with rfl | ha
    · rw [reply_type, reply_type]
    · rw [← hm'', reply_reply_of_ne hicmph ha hcheck]
  · rw [reply, reply, hload, csumLen_mangle (by omega), csumLen_mangle (by omega), hlen,
      Memory.store_inside _ (by omega) (by omega), Memory.store_inside _ (by omega) (by omega)]

end Bytes

/-! ## Answers to answers -/

section Answers

variable {e : ByteOrder} {skb : SkBuff} {icmph : ℤ}

/-- The answer to an ICMP frame. -/
def SkBuff.answered (e : ByteOrder) (skb : SkBuff) (icmph : ℤ) : SkBuff :=
  { skb with data := reply e skb.data ethHlen icmph }

theorem IcmpFrame.frame_eq (h : IcmpFrame skb) (e : ByteOrder)
    (hicmph : icmph = ethHlen + 4 * ihl skb.data ethHlen) :
    (dummyEthRx e (some skb)).frame = some (skb.answered e icmph) := by
  simp [dummyEthRx, h.network, h.protocol, h.transport, hicmph, Outcome.frame, SkBuff.answered]

/-- The bytes between the MAC addresses and the IP addresses are kept by the answer. -/
theorem data_answered (hicmph : (ethHlen + 20 : ℤ) ≤ icmph) {a : ℤ} (ha : 2 * ethAlen ≤ a)
    (ha' : a < ethHlen + 12) : (skb.answered e icmph).data a = skb.data a :=
  reply_others (.inr ha) (.inl ha') (by omega) (by omega)

theorem ihl_answered (e : ByteOrder) (skb : SkBuff) (hicmph : (ethHlen + 20 : ℤ) ≤ icmph) :
    ihl (skb.answered e icmph).data ethHlen = ihl skb.data ethHlen := by
  rw [ihl, ihl, data_answered hicmph (by simp [ethAlen, ethHlen]) (by omega)]

theorem totLen_answered (e : ByteOrder) (skb : SkBuff) (hicmph : (ethHlen + 20 : ℤ) ≤ icmph) :
    totLen (skb.answered e icmph).data ethHlen = totLen skb.data ethHlen := by
  rw [totLen, totLen, data_answered hicmph (by simp [ethAlen, ethHlen]) (by omega),
    data_answered hicmph (by simp [ethAlen, ethHlen]) (by omega)]

/-- **The answer to an ICMP frame is one**, so it is answered again. -/
theorem IcmpFrame.answered (h : IcmpFrame skb) (e : ByteOrder)
    (hicmph : icmph = ethHlen + 4 * ihl skb.data ethHlen) : IcmpFrame (skb.answered e icmph) := by
  have hihl := h.five_le_ihl
  have hge : (ethHlen + 20 : ℤ) ≤ icmph := by omega
  have hihl' := ihl_answered e skb hge
  have hlen := totLen_answered e skb hge
  refine ⟨h.network, ?_, ?_, ?_, ?_, ?_, ?_, ?_⟩
  · rw [data_answered hge (by simp [ethAlen]) (by simp [ethHlen]),
      data_answered hge (by simp [ethAlen]) (by simp [ethHlen])]
    exact h.etherType
  · rw [ipVersion, data_answered hge (by simp [ethAlen, ethHlen]) (by omega)]
    exact h.version
  · rw [Dummy.protocol, data_answered hge (by simp [ethAlen, ethHlen]) (by omega)]
    exact h.protocol
  · rw [hihl']
    exact hihl
  · rw [hihl']
    exact h.transport
  · rw [hihl', hlen]
    exact h.header_le
  · rw [hlen]
    exact h.total_le

/-- **Replies bounce**: the answers to an ICMP frame, each to the one before, alternate between a
reply and the frame received, which is restored but for its type and checksum. -/
theorem answers_bounce (e : ByteOrder) {skb : SkBuff} (h : IcmpFrame skb) :
    ∃ skb₁ skb₂, dummyEthRx e (some skb) = .pushed skb₁ ∧ Restored skb skb₂ ∧
      ∀ n, answers e (2 * n + 1) skb = some skb₁ ∧ answers e (2 * n + 2) skb = some skb₂ := by
  have hihl := h.five_le_ihl
  generalize hicmph : (ethHlen + 4 * ihl skb.data ethHlen : ℤ) = icmph
  have hge : (ethHlen + 20 : ℤ) ≤ icmph := by omega
  have h₁ := h.answered e hicmph.symm
  have hihl₁ := ihl_answered e skb hge
  have hicmph₁ : icmph = ethHlen + 4 * ihl (skb.answered e icmph).data ethHlen := by
    rw [hihl₁, hicmph]
  have h₂ := h₁.answered e hicmph₁
  have hihl₂ := (ihl_answered e (skb.answered e icmph) hge).trans hihl₁
  have hthird : ((skb.answered e icmph).answered e icmph).answered e icmph =
      skb.answered e icmph := by
    rw [SkBuff.answered, SkBuff.mk.injEq]
    exact ⟨reply_reply_reply hge, rfl, rfl, rfl⟩
  -- an answer more is an answer to the first one
  have hstep : ∀ n, answers e (n + 1) skb = answers e n (skb.answered e icmph) := by
    intro n
    rw [answers, h.frame_eq e hicmph.symm, Option.bind_some]
  have hstep₁ : ∀ n, answers e (n + 1) (skb.answered e icmph) =
      answers e n ((skb.answered e icmph).answered e icmph) := by
    intro n
    rw [answers, h₁.frame_eq e hicmph₁, Option.bind_some]
  have hstep₂ : ∀ n, answers e (n + 1) ((skb.answered e icmph).answered e icmph) =
      answers e n (skb.answered e icmph) := by
    intro n
    rw [answers, h₂.frame_eq e (by rw [hihl₂, hicmph]), Option.bind_some, hthird]
  have hperiod : ∀ n, answers e (2 * n) (skb.answered e icmph) = some (skb.answered e icmph) ∧
      answers e (2 * n) ((skb.answered e icmph).answered e icmph) =
        some ((skb.answered e icmph).answered e icmph) := by
    intro n
    induction n with
    | zero => exact ⟨rfl, rfl⟩
    | succ n ih =>
      rw [show 2 * (n + 1) = 2 * n + 1 + 1 by omega, hstep₁, hstep₂, hstep₂, hstep₁]
      exact ih
  refine ⟨_, (skb.answered e icmph).answered e icmph, ?_, ⟨?_, ?_, ?_, rfl, rfl, rfl⟩,
    fun n => ⟨(hstep _).trans (hperiod n).1, ?_⟩⟩
  · simp [dummyEthRx, h.network, h.protocol, h.transport, hicmph, SkBuff.answered]
  · intro a ha hcheck
    rw [hicmph] at ha hcheck
    exact reply_reply_of_ne hge ha hcheck
  · rw [hicmph]
    exact reply_type
  · intro e'
    have hverifies := h₁.verifies_icmp e e' hicmph₁
    rw [totLen_answered e skb hge, hihl₁] at hverifies
    rw [hicmph]
    exact hverifies
  · rw [hstep, hstep₁]
    exact (hperiod n).2

theorem answers_bounce_ping :
    ∃ skb₁ skb₂, dummyEthRx .little (some pingFrame) = .pushed skb₁ ∧ Restored pingFrame skb₂ ∧
      ∀ n, answers .little (2 * n + 1) pingFrame = some skb₁ ∧
        answers .little (2 * n + 2) pingFrame = some skb₂ :=
  answers_bounce .little
    ⟨rfl, by decide, by decide, by decide, by decide, rfl, by decide, by decide⟩

end Answers

end Dummy
