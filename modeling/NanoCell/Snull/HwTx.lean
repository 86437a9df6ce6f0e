import NanoCell.Lib.Checksum
import NanoCell.Snull.Driver

/-!
# Storing a frame in a packet

`snull_hw_tx` moves a frame to the network of the other device by flipping a bit in each of the two
IP addresses, recomputes the header checksum and copies the frame into a packet from the pool. The
array of a packet has room for `ETH_DATA_LEN` bytes, the payload of a frame without its Ethernet
header: a frame of the full MTU is longer by that header and is copied past the end of the array.

## Main definitions

* `snullHwTx`: the transmit function
* `AdmissibleFrame`: a frame that the stack may pass to the device
* `StoresWhole`: the frame is in the packet, and nothing else was written

## Main results

* `verifies_rewriteHeader`: the header checksum verifies
* `storesWhole_iff`: a frame is stored exactly when it is not longer than the array
-/

namespace Snull

/-- `sizeof(struct ethhdr)`: where the IP header starts. -/
def ethHlen : ℕ := 14

/-- `SNULL_TX_INTR`. -/
def snullTxIntr : BitVec 32 := 0x0002#32

/-- `ih->ihl`, in the frame `m`. -/
def ihl (m : Memory (BitVec 8)) : ℕ := (m ethHlen &&& 0x0f#8).toNat

/-- `ip_fast_csum`: the checksum of a header of `ihl` words of four bytes. -/
def ipFastCsum (e : ByteOrder) (iph : ℕ → BitVec 8) (ihl : ℕ) : BitVec 16 :=
  csumFold (csumPartial e iph (4 * ihl) 0)

/-- `((u8 *)addr)[2] ^= 1`, for the address at the offset `addr`. -/
def flipThirdOctet (m : Memory (BitVec 8)) (addr : ℤ) : Memory (BitVec 8) :=
  m.store (addr + 2) 1 fun _ => m (addr + 2) ^^^ 1#8

/-- The frame up to `ih->check = 0`. -/
def clearCheck (m : Memory (BitVec 8)) : Memory (BitVec 8) :=
  let m := flipThirdOctet m (ethHlen + 12)
  let m := flipThirdOctet m (ethHlen + 16)
  m.store (ethHlen + 10) 2 fun _ => 0

/-- The frame with its header checksum rebuilt. -/
def rewriteHeader (e : ByteOrder) (m : Memory (BitVec 8)) : Memory (BitVec 8) :=
  let m := clearCheck m
  m.store (ethHlen + 10) 2 (e.bytes (ipFastCsum e (m.load ethHlen) (ihl m)))

/-- `pkt->datalen = len; memcpy(pkt->data, buf, len)`. -/
def State.fillPacket (s : State) (pkt buf : Ptr) (len : ℕ) : State :=
  { s with
    pkts := Function.update s.pkts pkt { s.pkts pkt with
      datalen := len
      data := (s.pkts pkt).data.store 0 len ((s.bufs buf).load 0) }
    overruns := if len ≤ ethDataLen then s.overruns else s.overruns ++ [(pkt, len)] }

/-- `snull_hw_tx`, for a frame of `len` bytes at `buf`. -/
def snullHwTx (e : ByteOrder) (s : State) (buf : Ptr) (len : ℕ) (dev : Dev) : State :=
  let s := { s with bufs := Function.update s.bufs buf (rewriteHeader e (s.bufs buf)) }
  match snullGetTxBuffer s dev with
  | (s, none) => s
  | (s, some txBuffer) =>
    let s := s.fillPacket txBuffer buf len
    s.setPriv dev { s.priv dev with
      txPacketlen := len
      txPacketdata := some buf
      status := (s.priv dev).status ||| snullTxIntr }

/-- An IPv4 frame that the stack may pass to an Ethernet device with an MTU of 1500. -/
structure AdmissibleFrame (m : Memory (BitVec 8)) (len : ℕ) : Prop where
  min : 34 ≤ len
  max : len ≤ 1514
  five_le_ihl : 5 ≤ ihl m
  header_le : ethHlen + 4 * ihl m ≤ len

/-- The frame at `buf` is in the packet `pkt`, rewritten for the other network, the copy stayed
inside the array, and the rest of the packet is as `snull_get_tx_buffer` returned it. -/
structure StoresWhole (e : ByteOrder) (s : State) (buf : Ptr) (len : ℕ) (dev : Dev) (pkt : Ptr) :
    Prop where
  got : (snullGetTxBuffer s dev).2 = some pkt
  datalen : ((snullHwTx e s buf len dev).pkts pkt).datalen = len
  bytes : ∀ k < len, k ≠ ethHlen + 10 → k ≠ ethHlen + 11 →
    ((snullHwTx e s buf len dev).pkts pkt).data.load 0 k =
      if k = ethHlen + 14 ∨ k = ethHlen + 18 then (s.bufs buf).load 0 k ^^^ 1#8
      else (s.bufs buf).load 0 k
  check : ∀ e', Verifies e' (((snullHwTx e s buf len dev).pkts pkt).data.load ethHlen)
    (4 * ihl (s.bufs buf))
  inside : (snullHwTx e s buf len dev).overruns = s.overruns
  others : ∀ a : ℤ, a < 0 ∨ len ≤ a → ((snullHwTx e s buf len dev).pkts pkt).data a =
    ((snullGetTxBuffer s dev).1.pkts pkt).data a
  next : ((snullHwTx e s buf len dev).pkts pkt).next = ((snullGetTxBuffer s dev).1.pkts pkt).next
  dev : ((snullHwTx e s buf len dev).pkts pkt).dev = ((snullGetTxBuffer s dev).1.pkts pkt).dev

/-! ## The bytes of the frame -/

section Frame

variable {e : ByteOrder} {m : Memory (BitVec 8)}

theorem flipThirdOctet_apply (addr a : ℤ) :
    flipThirdOctet m addr a = if a = addr + 2 then m a ^^^ 1#8 else m a := by
  split_ifs with ha
  · rw [flipThirdOctet, Memory.store_inside _ (by omega) (by omega), ha]
  · rw [flipThirdOctet, Memory.store_outside _ (by omega)]

theorem clearCheck_check {a : ℤ} (ha : ethHlen + 10 ≤ a) (ha' : a < ethHlen + 12) :
    clearCheck m a = 0 := by
  rw [clearCheck, Memory.store_inside _ ha (by omega)]

theorem clearCheck_of_ne {a : ℤ} (ha : a < ethHlen + 10 ∨ ethHlen + 12 ≤ a) :
    clearCheck m a =
      if a = ethHlen + 14 ∨ a = ethHlen + 18 then m a ^^^ 1#8 else m a := by
  rw [clearCheck, Memory.store_outside _ (by omega), flipThirdOctet_apply, flipThirdOctet_apply]
  split_ifs <;> first | rfl | omega

theorem rewriteHeader_of_ne {a : ℤ} (ha : a < ethHlen + 10 ∨ ethHlen + 12 ≤ a) :
    rewriteHeader e m a = clearCheck m a := by
  rw [rewriteHeader, Memory.store_outside _ (by omega)]

theorem ihl_clearCheck : ihl (clearCheck m) = ihl m := by
  rw [ihl, clearCheck_of_ne (by omega), if_neg (by omega), ihl]

/-- The header checksum of the rewritten frame verifies. -/
theorem verifies_rewriteHeader (h : 5 ≤ ihl m) (e' : ByteOrder) :
    Verifies e' ((rewriteHeader e m).load ethHlen) (4 * ihl m) := by
  rw [rewriteHeader, ipFastCsum, ihl_clearCheck]
  apply verifies_store (j := 10) rfl (by omega)
  · exact clearCheck_check (by omega) (by omega)
  · exact clearCheck_check (by omega) (by omega)

end Frame

/-! ## The packet -/

section Packet

variable {e : ByteOrder} {s : State} {buf pkt : Ptr} {len : ℕ} {dev : Dev}

theorem snullGetTxBuffer_pkts : (snullGetTxBuffer s dev).1.pkts = s.pkts := by
  cases h : s.head (.pool dev) with
  | none => rw [snullGetTxBuffer_none h]; rfl
  | some pkt => rw [snullGetTxBuffer_some h]; rfl

/-- The packet that the frame is stored in, and the overrun if there is one. -/
theorem snullHwTx_some (e : ByteOrder) (buf : Ptr) (len : ℕ) (h : s.head (.pool dev) = some pkt) :
    (snullHwTx e s buf len dev).pkts pkt =
        ⟨(s.pkts pkt).next, (s.pkts pkt).dev, len,
          (s.pkts pkt).data.store 0 len ((rewriteHeader e (s.bufs buf)).load 0)⟩ ∧
      (snullHwTx e s buf len dev).overruns =
        if len ≤ ethDataLen then s.overruns else s.overruns ++ [(pkt, len)] := by
  generalize ht : { s with bufs := Function.update s.bufs buf (rewriteHeader e (s.bufs buf)) } = t
  have hhead : t.head (.pool dev) = some pkt := by
    rw [← ht]
    exact h
  rw [snullHwTx, ht, snullGetTxBuffer_some hhead, ← ht]
  constructor
  · simp [State.setPriv, State.fillPacket, State.spinUnlock, State.setHead, State.spinLock]
  · rfl

/-- **Frames and packets**: an admissible frame is stored whole exactly when it is not longer than
the array of a packet. -/
theorem storesWhole_iff (e : ByteOrder) (h : AdmissibleFrame (s.bufs buf) len)
    (hpool : s.head (.pool dev) = some pkt) :
    StoresWhole e s buf len dev pkt ↔ len ≤ ethDataLen := by
  obtain ⟨hpkt, hover⟩ := snullHwTx_some e buf len hpool
  constructor
  · intro hstores
    by_contra hlong
    rw [hstores.inside, if_neg hlong] at hover
    exact absurd hover (by simp)
  · intro hle
    have hheader := h.header_le
    have hstore : ((snullHwTx e s buf len dev).pkts pkt).data =
        (s.pkts pkt).data.store 0 len ((rewriteHeader e (s.bufs buf)).load 0) := by
      rw [hpkt]
    have hdata : ∀ k < len, ((snullHwTx e s buf len dev).pkts pkt).data.load 0 k =
        (rewriteHeader e (s.bufs buf)).load 0 k := by
      intro k hk
      rw [hstore, Memory.load, Memory.store_inside _ (by omega) (by omega)]
      simp
    refine ⟨?_, ?_, ?_, ?_, ?_, ?_, ?_, ?_⟩
    · rw [snullGetTxBuffer_some hpool]
    · rw [hpkt]
    · intro k hk hk10 hk11
      rw [hdata k hk, Memory.load, rewriteHeader_of_ne (by omega), clearCheck_of_ne (by omega)]
      simp only [zero_add, Memory.load]
      norm_cast
    · intro e'
      have hcopy : ∀ k < 4 * ihl (s.bufs buf),
          ((snullHwTx e s buf len dev).pkts pkt).data.load ethHlen k =
            (rewriteHeader e (s.bufs buf)).load ethHlen k := by
        intro k hk
        have hk' := hdata (ethHlen + k) (by omega)
        simpa [Memory.load] using hk'
      rw [verifies_congr hcopy]
      exact verifies_rewriteHeader h.five_le_ihl e'
    · rw [hover, if_pos hle]
    · intro a ha
      rw [hstore, snullGetTxBuffer_pkts, Memory.store_outside _ (by omega)]
    · rw [hpkt, snullGetTxBuffer_pkts]
    · rw [hpkt, snullGetTxBuffer_pkts]

end Packet

/-- A frame with an IP header of 20 bytes. -/
def plainFrame : Memory (BitVec 8) := Function.update (fun _ => 0) ethHlen 0x45#8

/-- The two devices with one packet each, and plain frames to send. -/
def onePacket : State :=
  start kmallocNext 1 (fun _ => ⟨none, .sn0, 0, fun _ => 0⟩) fun _ => plainFrame

/-- The shortest frame is stored. -/
theorem shortest_stored : StoresWhole .little onePacket 0 34 .sn0 1 :=
  (storesWhole_iff .little ⟨by decide, by decide, by decide, by decide⟩ rfl).mpr (by decide)

/-- A frame of the full MTU with its Ethernet header is written past the end of the array. -/
theorem longest_overruns :
    AdmissibleFrame (onePacket.bufs 0) 1514 ∧ onePacket.head (.pool .sn0) = some 1 ∧
      ¬ StoresWhole .little onePacket 0 1514 .sn0 1 := by
  have hpool : onePacket.head (.pool .sn0) = some 1 := rfl
  refine ⟨⟨by decide, by decide, by decide, by decide⟩, hpool, ?_⟩
  intro h
  have hover := (snullHwTx_some .little 0 1514 hpool).2
  rw [h.inside] at hover
  exact absurd hover (by decide)

end Snull
