import NanoCell.Lib.Checksum

/-!
# Answering a ping in place

`dummy_eth_rx` is called with a frame that the dummy device sent and turns it into the reply: it
exchanges the addresses, changes the ICMP type, recomputes the ICMP checksum and hands the frame to
the stack. The IP header checksum is not recomputed, and need not be: exchanging the two addresses
keeps the sum of its words. The only field that decides whether a frame is answered is the protocol
of the IP header.

## Main definitions

* `SkBuff`: the bytes of a buffer, its length and its header pointers
* `dummyEthRx`: the receive function
* `IcmpFrame`: an Ethernet frame with a whole ICMP message in an IPv4 packet
* `EchoRequest`: an `IcmpFrame` with the type of an echo request

## Main results

* `dummyEthRx_reply`: the answer to an ICMP frame is a valid reply
* `answersOnlyPings_iff`: when a buffer is answered only if it is a well-formed ping
-/

namespace Dummy

/-- `ETH_ALEN`: the bytes of a MAC address. -/
def ethAlen : ℕ := 6

/-- `ETH_HLEN`: the bytes of an Ethernet header. -/
def ethHlen : ℕ := 14

/-- `ETH_P_IP`. -/
def ethPIp : BitVec 16 := 0x0800#16

/-- `IPPROTO_ICMP`. -/
def ipprotoIcmp : BitVec 8 := 1#8

/-- `ICMP_ECHOREPLY`. -/
def icmpEchoReply : BitVec 8 := 0#8

/-- `ICMP_ECHO`. -/
def icmpEcho : BitVec 8 := 8#8

/-- A `struct sk_buff`: the bytes around `skb->data`, the length of the frame that starts there, and
the offsets from `skb->data` of the network and the transport header, if these pointers are not
`NULL`. -/
structure SkBuff where
  data : Memory (BitVec 8)
  len : ℕ
  networkHeader : Option ℤ
  transportHeader : Option ℤ

/-! ## The fields of the IP header at the offset `iph` -/

section Header

variable (m : Memory (BitVec 8)) (iph : ℤ)

/-- `iph->version`. -/
def ipVersion : ℕ := (m iph >>> 4).toNat

/-- `iph->ihl`: the length of the header in words of four bytes. -/
def ihl : ℕ := (m iph &&& 0x0f#8).toNat

/-- `ntohs(iph->tot_len)`. -/
def totLen : ℕ := (ByteOrder.big.word (m (iph + 2)) (m (iph + 3))).toNat

/-- `iph->protocol`. -/
def protocol : BitVec 8 := m (iph + 9)

/-- The length that `csum_partial` is called with, an `int`. -/
def csumLen : ℤ := totLen m iph - 4 * ihl m iph

end Header

/-! ## The receive function -/

/-- The mangled frame before its checksum is computed. -/
def mangle (m : Memory (BitVec 8)) (iph icmph : ℤ) : Memory (BitVec 8) :=
  let m := m.exchange 0 ethAlen ethAlen
  let m := m.exchange (iph + 16) (iph + 12) 4
  let m := m.store icmph 1 fun _ => icmpEchoReply
  m.store (icmph + 2) 2 fun _ => 0

/-- The mangled frame with its checksum. -/
def reply (e : ByteOrder) (m : Memory (BitVec 8)) (iph icmph : ℤ) : Memory (BitVec 8) :=
  let m := mangle m iph icmph
  -- nothing is summed if the length is negative
  let csum := csumPartial e (m.load icmph) (csumLen m iph).toNat 0
  m.store (icmph + 2) 2 (e.bytes (csumFold csum))

/-- What becomes of a buffer: there is none and `-EINVAL` is returned, it is freed, or it is passed
up with `netif_rx`. That `eth_type_trans` moves `skb->data` behind the Ethernet header is left out,
so that the offsets stay those of the frame received. -/
inductive Outcome where
  | einval
  | freed (skb : SkBuff)
  | pushed (skb : SkBuff)

/-- `dummy_eth_rx`, on a host of the byte order `e`. -/
def dummyEthRx (e : ByteOrder) : Option SkBuff → Outcome
  | none => .einval
  | some skb =>
    match skb.networkHeader with
    | none => .freed skb
    | some iph =>
      if protocol skb.data iph = ipprotoIcmp then
        match skb.transportHeader with
        | none => .freed skb
        | some icmph => .pushed { skb with data := reply e skb.data iph icmph }
      else .freed skb

/-! ## Frames -/

/-- An Ethernet frame that holds an IPv4 packet with a whole ICMP message, with the header pointers
of the buffer set accordingly. -/
structure IcmpFrame (skb : SkBuff) : Prop where
  network : skb.networkHeader = some ethHlen
  etherType : ByteOrder.big.word (skb.data 12) (skb.data 13) = ethPIp
  version : ipVersion skb.data ethHlen = 4
  protocol : protocol skb.data ethHlen = ipprotoIcmp
  five_le_ihl : 5 ≤ ihl skb.data ethHlen
  transport : skb.transportHeader = some (ethHlen + 4 * ihl skb.data ethHlen)
  header_le : 4 * ihl skb.data ethHlen + 8 ≤ totLen skb.data ethHlen
  total_le : ethHlen + totLen skb.data ethHlen ≤ skb.len

/-- The frame `skb'` is a valid reply to `skb`. The checksums verify on hosts of every byte
order. -/
structure ValidReply (skb skb' : SkBuff) : Prop where
  dest : ∀ k < ethAlen, skb'.data.load 0 k = skb.data.load ethAlen k
  source : ∀ k < ethAlen, skb'.data.load ethAlen k = skb.data.load 0 k
  saddr : ∀ k < 4, skb'.data.load (ethHlen + 12) k = skb.data.load (ethHlen + 16) k
  daddr : ∀ k < 4, skb'.data.load (ethHlen + 16) k = skb.data.load (ethHlen + 12) k
  type : skb'.data (ethHlen + 4 * ihl skb.data ethHlen) = icmpEchoReply
  icmp : ∀ e, Verifies e (skb'.data.load (ethHlen + 4 * ihl skb.data ethHlen))
    (totLen skb.data ethHlen - 4 * ihl skb.data ethHlen)
  ip : ∀ e, Verifies e (skb'.data.load ethHlen) (4 * ihl skb.data ethHlen) ↔
    Verifies e (skb.data.load ethHlen) (4 * ihl skb.data ethHlen)
  others : ∀ a : ℤ, (a < 0 ∨ 2 * ethAlen ≤ a) → (a < ethHlen + 12 ∨ ethHlen + 20 ≤ a) →
    a ≠ ethHlen + 4 * ihl skb.data ethHlen →
    (a < ethHlen + 4 * ihl skb.data ethHlen + 2 ∨ ethHlen + 4 * ihl skb.data ethHlen + 4 ≤ a) →
    skb'.data a = skb.data a
  len : skb'.len = skb.len
  network : skb'.networkHeader = skb.networkHeader
  transport : skb'.transportHeader = skb.transportHeader

/-! ## The bytes of the reply -/

section Bytes

variable {e : ByteOrder} {m : Memory (BitVec 8)} {iph icmph a : ℤ}

/-- Where the mangled frame takes a byte from that is not of the ICMP type or checksum. -/
def mangledFrom (iph a : ℤ) : ℤ :=
  Memory.exchanged 0 ethAlen ethAlen (Memory.exchanged (iph + 16) (iph + 12) 4 a)

theorem mangle_check (ha : icmph + 2 ≤ a) (ha' : a < icmph + 4) : mangle m iph icmph a = 0 := by
  rw [mangle, Memory.store_inside _ ha (by omega)]

theorem mangle_type : mangle m iph icmph icmph = icmpEchoReply := by
  rw [mangle, Memory.store_outside _ (by omega), Memory.store_inside _ le_rfl (by omega)]

theorem mangle_of_ne (ha : a ≠ icmph) (ha' : a < icmph + 2 ∨ icmph + 4 ≤ a) :
    mangle m iph icmph a = m (mangledFrom iph a) := by
  rw [mangle, Memory.store_outside _ (by omega), Memory.store_outside _ (by omega),
    Memory.exchange_apply, Memory.exchange_apply]
  rfl

theorem reply_of_ne (ha : a < icmph + 2 ∨ icmph + 4 ≤ a) :
    reply e m iph icmph a = mangle m iph icmph a :=
  Memory.store_outside _ (by omega)

theorem reply_type : reply e m iph icmph icmph = icmpEchoReply := by
  rw [reply_of_ne (by omega), mangle_type]

/-- The exchange of the addresses in an IP header, by the offset in the header. -/
def addrSwap (k : ℕ) : ℕ :=
  if 12 ≤ k ∧ k < 16 then k + 4 else if 16 ≤ k ∧ k < 20 then k - 4 else k

theorem addrSwap_involutive : Function.Involutive addrSwap := by
  intro k
  unfold addrSwap
  split_ifs <;> omega

theorem mangledFrom_header (k : ℕ) :
    mangledFrom ethHlen (ethHlen + k) = ethHlen + addrSwap k := by
  have haddrs : Memory.exchanged (ethHlen + 16) (ethHlen + 12) 4 (ethHlen + k) =
      ethHlen + addrSwap k := by
    unfold Memory.exchanged addrSwap
    split_ifs <;> omega
  rw [mangledFrom, haddrs]
  apply Memory.exchanged_outside <;> simp only [ethHlen, ethAlen] <;> omega

theorem mangledFrom_outside (ha : a < 0 ∨ 2 * ethAlen ≤ a)
    (ha' : a < ethHlen + 12 ∨ ethHlen + 20 ≤ a) : mangledFrom ethHlen a = a := by
  rw [mangledFrom, Memory.exchanged_outside (a := a) (by omega) (by omega),
    Memory.exchanged_outside (by omega) (by omega)]

/-- The bytes of the reply that are not mangled. -/
theorem reply_others (hmac : a < 0 ∨ 2 * ethAlen ≤ a)
    (haddr : a < ethHlen + 12 ∨ ethHlen + 20 ≤ a) (htype : a ≠ icmph)
    (hcheck : a < icmph + 2 ∨ icmph + 4 ≤ a) : reply e m ethHlen icmph a = m a := by
  rw [reply_of_ne hcheck, mangle_of_ne htype hcheck, mangledFrom_outside hmac haddr]

/-- The packet after the Ethernet header in the reply, up to the ICMP header. -/
theorem reply_header {k : ℕ} (hk : (ethHlen + k : ℤ) < icmph) :
    reply e m ethHlen icmph (ethHlen + k) = m (ethHlen + addrSwap k) := by
  rw [reply_of_ne (by omega), mangle_of_ne (by omega) (by omega), mangledFrom_header]

/-- The bytes before the IP header in the reply. -/
theorem reply_mac (ha : a < ethHlen) (hicmph : (ethHlen : ℤ) ≤ icmph) :
    reply e m ethHlen icmph a = m (Memory.exchanged 0 ethAlen ethAlen a) := by
  rw [reply_of_ne (by omega), mangle_of_ne (by omega) (by omega), mangledFrom,
    Memory.exchanged_outside (a := a) (by omega) (by omega)]

/-- The MAC addresses of the reply. -/
theorem reply_macs {k : ℕ} (hk : k < ethAlen) (hicmph : (ethHlen : ℤ) ≤ icmph) :
    (reply e m ethHlen icmph).load 0 k = m.load ethAlen k ∧
      (reply e m ethHlen icmph).load ethAlen k = m.load 0 k := by
  have hmac : (ethAlen + k : ℤ) < ethHlen := by
    unfold ethAlen ethHlen at *
    omega
  constructor
  · rw [Memory.load, reply_mac (by omega) hicmph,
      Memory.exchanged_left (by omega) (by omega) (by omega), Memory.load]
    congr 1
    omega
  · rw [Memory.load, reply_mac hmac hicmph, Memory.exchanged_right (by omega) (by omega),
      Memory.load]
    congr 1
    omega

/-- The IP addresses of the reply. -/
theorem reply_addrs {k : ℕ} (hk : k < 4) (hicmph : (ethHlen + 20 : ℤ) ≤ icmph) :
    (reply e m ethHlen icmph).load (ethHlen + 12) k = m.load (ethHlen + 16) k ∧
      (reply e m ethHlen icmph).load (ethHlen + 16) k = m.load (ethHlen + 12) k := by
  have hsaddr : addrSwap (12 + k) = 16 + k := by
    rw [addrSwap, if_pos (by omega)]
    omega
  have hdaddr : addrSwap (16 + k) = 12 + k := by
    rw [addrSwap, if_neg (by omega), if_pos (by omega)]
    omega
  simp only [Memory.load, add_assoc]
  constructor
  · exact_mod_cast hsaddr ▸ reply_header (k := 12 + k) (by omega)
  · exact_mod_cast hdaddr ▸ reply_header (k := 16 + k) (by omega)

/-- The header fields that the length of the ICMP message is read from are those of the frame
received. -/
theorem csumLen_mangle (hicmph : (ethHlen + 4 : ℤ) ≤ icmph) :
    csumLen (mangle m ethHlen icmph) ethHlen = csumLen m ethHlen := by
  have hkeep : ∀ a : ℤ, ethHlen ≤ a → a < ethHlen + 4 → mangle m ethHlen icmph a = m a := by
    intro a ha ha'
    rw [mangle_of_ne (by omega) (by omega), mangledFrom_outside _ (by omega)]
    simp only [ethAlen, ethHlen] at *
    omega
  simp only [csumLen, totLen, ihl]
  rw [hkeep _ (by omega) (by omega), hkeep _ (by omega) (by omega), hkeep _ (by omega) (by omega)]

end Bytes

section Reply

variable {skb : SkBuff}

theorem IcmpFrame.csumLen_eq (h : IcmpFrame skb) :
    (csumLen skb.data ethHlen).toNat = totLen skb.data ethHlen - 4 * ihl skb.data ethHlen := by
  have hle := h.header_le
  unfold csumLen
  omega

/-- The ICMP checksum of the reply verifies. -/
theorem IcmpFrame.verifies_icmp (h : IcmpFrame skb) (e e' : ByteOrder) {icmph : ℤ}
    (hicmph : icmph = ethHlen + 4 * ihl skb.data ethHlen) :
    Verifies e' ((reply e skb.data ethHlen icmph).load icmph)
      (totLen skb.data ethHlen - 4 * ihl skb.data ethHlen) := by
  have hihl := h.five_le_ihl
  have hle := h.header_le
  have hlen : (csumLen (mangle skb.data ethHlen icmph) ethHlen).toNat =
      totLen skb.data ethHlen - 4 * ihl skb.data ethHlen := by
    rw [csumLen_mangle (by omega), h.csumLen_eq]
  rw [reply, hlen]
  apply verifies_store (j := 2) rfl (by omega)
  · exact mangle_check (by omega) (by omega)
  · exact mangle_check (by omega) (by omega)

/-- The IP header of the reply verifies exactly when the one received does. -/
theorem IcmpFrame.verifies_ip (h : IcmpFrame skb) (e e' : ByteOrder) {icmph : ℤ}
    (hicmph : icmph = ethHlen + 4 * ihl skb.data ethHlen) :
    Verifies e' ((reply e skb.data ethHlen icmph).load ethHlen) (4 * ihl skb.data ethHlen) ↔
      Verifies e' (skb.data.load ethHlen) (4 * ihl skb.data ethHlen) := by
  have hihl := h.five_le_ihl
  apply verifies_perm addrSwap_involutive
  · intro k hk
    unfold addrSwap
    split_ifs <;> omega
  · intro k
    unfold addrSwap
    split_ifs <;> omega
  · intro k hk
    exact reply_header (by omega)

/-- **A ping is answered**: the frame that is passed up for an ICMP frame is a valid reply. -/
theorem dummyEthRx_reply (e : ByteOrder) {skb : SkBuff} (h : IcmpFrame skb) :
    ∃ skb', dummyEthRx e (some skb) = .pushed skb' ∧ ValidReply skb skb' := by
  have hihl := h.five_le_ihl
  generalize hicmph : (ethHlen + 4 * ihl skb.data ethHlen : ℤ) = icmph
  refine ⟨{ skb with data := reply e skb.data ethHlen icmph }, ?_, ?_⟩
  · simp [dummyEthRx, h.network, h.protocol, h.transport, hicmph]
  · refine ⟨?_, ?_, ?_, ?_, ?_, ?_, ?_, ?_, rfl, rfl, rfl⟩
    · exact fun k hk => (reply_macs hk (by omega)).1
    · exact fun k hk => (reply_macs hk (by omega)).2
    · exact fun k hk => (reply_addrs hk (by omega)).1
    · exact fun k hk => (reply_addrs hk (by omega)).2
    · rw [hicmph]
      exact reply_type
    · intro e'
      rw [hicmph]
      exact h.verifies_icmp e e' hicmph.symm
    · intro e'
      exact h.verifies_ip e e' hicmph.symm
    · intro a hmac haddr htype hcheck
      rw [hicmph] at htype hcheck
      exact reply_others hmac haddr htype hcheck

end Reply

/-! ## Buffers with given bytes -/

/-- The frame of the given bytes, in a buffer whose header pointers are set to the IP header and to
the header after it. -/
def SkBuff.ofBytes (bytes : List (BitVec 8)) : SkBuff where
  data a := if 0 ≤ a then bytes.getD a.toNat 0 else 0
  len := bytes.length
  networkHeader := some ethHlen
  transportHeader := some (ethHlen + 4 * ((bytes.getD ethHlen 0) &&& 0x0f#8).toNat)

/-- The Ethernet header of an IPv4 frame, and an IP header of 20 bytes for an ICMP message. -/
def icmpHeaders (totLen : BitVec 8) : List (BitVec 8) :=
  [0x02, 0, 0, 0, 0, 0x01, 0x02, 0, 0, 0, 0, 0x02, 0x08, 0x00,
    0x45, 0, 0, totLen, 0, 0, 0, 0, 64, 1, 0, 0, 10, 0, 0, 1, 10, 0, 0, 2]

/-- A ping with three bytes of data. -/
def pingFrame : SkBuff :=
  .ofBytes (icmpHeaders 31 ++ [8, 0, 0, 0, 0, 1, 0, 1, 0x61, 0x62, 0x63])

theorem dummyEthRx_reply_ping :
    ∃ skb', dummyEthRx .little (some pingFrame) = .pushed skb' ∧ ValidReply pingFrame skb' :=
  dummyEthRx_reply .little
    ⟨rfl, by decide, by decide, by decide, by decide, rfl, by decide, by decide⟩

/-! ## What is answered -/

/-- A well-formed ping. -/
structure EchoRequest (skb : SkBuff) : Prop extends IcmpFrame skb where
  type : skb.data (ethHlen + 4 * ihl skb.data ethHlen) = icmpEcho

/-- Only a well-formed ping is answered, and the range that its checksum is computed over lies in
the frame; every other buffer is freed as it was received. -/
structure AnswersOnlyPings (e : ByteOrder) (skb : SkBuff) : Prop where
  ping : ∀ skb', dummyEthRx e (some skb) = .pushed skb' → EchoRequest skb ∧
    0 ≤ csumLen skb.data ethHlen ∧
    ethHlen + 4 * ihl skb.data ethHlen + csumLen skb.data ethHlen ≤ skb.len
  free : ¬ EchoRequest skb → dummyEthRx e (some skb) = .freed skb

/-- The one test that decides what becomes of a buffer. -/
theorem dummyEthRx_cases (e : ByteOrder) (skb : SkBuff) :
    ((∀ iph ∈ skb.networkHeader, protocol skb.data iph ≠ ipprotoIcmp) ∨
        skb.transportHeader = none) ∧ dummyEthRx e (some skb) = .freed skb ∨
      ∃ iph icmph, skb.networkHeader = some iph ∧ protocol skb.data iph = ipprotoIcmp ∧
        skb.transportHeader = some icmph ∧
        dummyEthRx e (some skb) = .pushed { skb with data := reply e skb.data iph icmph } := by
  cases hnet : skb.networkHeader with
  | none => simp [dummyEthRx, hnet]
  | some iph =>
    by_cases hprot : protocol skb.data iph = ipprotoIcmp
    · cases htrans : skb.transportHeader with
      | none => simp [dummyEthRx, hnet, htrans, hprot]
      | some icmph => simp [dummyEthRx, hnet, htrans, hprot]
    · simp [dummyEthRx, hnet, hprot]

/-- **What is answered**: the type, the lengths and the Ethernet type of a frame are not tested, so
a buffer is answered only if it is a well-formed ping exactly when its protocol is not ICMP or one
of the headers is missing, or when it happens to be such a ping. -/
theorem answersOnlyPings_iff (e : ByteOrder) (skb : SkBuff) :
    AnswersOnlyPings e skb ↔
      (∀ iph ∈ skb.networkHeader, protocol skb.data iph ≠ ipprotoIcmp) ∨
        skb.transportHeader = none ∨ EchoRequest skb := by
  rcases dummyEthRx_cases e skb with ⟨hno, hfree⟩ | ⟨iph, icmph, hnet, hprot, htrans, hpush⟩
  · constructor
    · intro _
      rcases hno with hprot | htrans
      · exact .inl hprot
      · exact .inr (.inl htrans)
    · intro _
      constructor
      · intro skb' hpush
        rw [hfree] at hpush
        cases hpush
      · exact fun _ => hfree
  · constructor
    · intro h
      exact .inr (.inr (h.ping _ hpush).1)
    · rintro (hno | hno | hping)
      · exact absurd hprot (hno iph hnet)
      · rw [htrans] at hno
        cases hno
      · have hle := hping.header_le
        have htotal := hping.total_le
        constructor
        · intro _ _
          refine ⟨hping, ?_, ?_⟩
          · unfold csumLen
            omega
          · unfold csumLen
            omega
        · exact fun hno => absurd hping hno

/-- A host answers that the destination of a ping is unreachable, with a copy of the ping's
headers. -/
def unreachableFrame : SkBuff :=
  .ofBytes (icmpHeaders 56 ++ [3, 1, 0, 0, 0, 0, 0, 0] ++ (icmpHeaders 28).drop ethHlen ++
    [8, 0, 0, 0, 0, 1, 0, 1])

/-- The message is turned into an echo reply and passed up. -/
theorem unreachable_answered : ¬ AnswersOnlyPings .little unreachableFrame := by
  intro h
  have hping : EchoRequest unreachableFrame := (h.ping _ rfl).1
  exact absurd hping.type (by decide)

end Dummy
