import Mathlib.Data.BitVec
import NanoCell.Lib.Counter

/-!
# Descriptors of the RTL8101E rings

The descriptor rings, socket buffers and DMA mappings that the Rx and Tx paths of
`Solutions/Rt8169Drv` share, with the descriptor words of `r8101.h`. Words are values of the
CPU's byte order: `cpu_to_le32` and its inverses cancel.

## Main definitions

* `Desc`: one descriptor of `net_stk.h`
* `hasBits`: the truth of a C test `word & bits`
* `Desc.makeUnusableByAsic`, `Desc.markToAsic`, `Desc.mapToAsic`: the writers of Rx descriptors
* `RxFrame`: a frame as the NIC writes it back
* `SkBuff`, `Mapping`, `Allocator`: buffers, their mappings, and the outcome of an allocation

## Main results

* `markToAsic_own`, `markToAsic_eor`: a marked descriptor belongs to the NIC and keeps its
  `RingEnd` bit
-/

namespace Rtl8101

/-- `NUM_TX_DESC`. -/
def numTxDesc : ℕ := 1024

/-- `NUM_RX_DESC`. -/
def numRxDesc : ℕ := 1024

instance : NeZero numTxDesc := ⟨by decide⟩

instance : NeZero numRxDesc := ⟨by decide⟩

theorem numTxDesc_dvd : numTxDesc ∣ 2 ^ 32 := ⟨2 ^ 22, by decide⟩

theorem numRxDesc_dvd : numRxDesc ∣ 2 ^ 32 := ⟨2 ^ 22, by decide⟩

theorem numTxDesc_eq : numTxDesc = 1024 := rfl

theorem numRxDesc_eq : numRxDesc = 1024 := rfl

/-- `RX_BUF_SIZE`. -/
def rxBufSize : BitVec 32 := 0x05F3#32

/-- `RTK_RX_ALIGN`. -/
def rtkRxAlign : BitVec 32 := 8#32

/-! ## Descriptor words -/

/-- `DescOwn`: the descriptor is owned by the NIC. -/
def descOwn : BitVec 32 := 1#32 <<< 31

/-- `RingEnd`: end of the descriptor ring. -/
def ringEnd : BitVec 32 := 1#32 <<< 30

/-- `FirstFrag`: first segment of a packet. -/
def firstFrag : BitVec 32 := 1#32 <<< 29

/-- `LastFrag`: final segment of a packet. -/
def lastFrag : BitVec 32 := 1#32 <<< 28

/-- `RxRWT`. -/
def rxRwt : BitVec 32 := 1#32 <<< 22

/-- `RxRES`. -/
def rxRes : BitVec 32 := 1#32 <<< 21

/-- `RxRUNT`. -/
def rxRunt : BitVec 32 := 1#32 <<< 20

/-- `RxCRC`. -/
def rxCrc : BitVec 32 := 1#32 <<< 19

/-- The length field of an Rx descriptor word, `opts1 & 0x00003FFF`. -/
def lenField (word : BitVec 32) : BitVec 32 := word &&& 0x00003FFF#32

/-- The length field of a Tx descriptor word, which has two bits more. -/
def txLenField (word : BitVec 32) : BitVec 32 := word &&& 0x0000FFFF#32

/-- The truth of the C condition `word & bits`. -/
def hasBits (word bits : BitVec 32) : Bool := word &&& bits != 0#32

theorem getLsbD_bit (m k : ℕ) :
    (1#32 <<< m).getLsbD k = (decide (k < 32) && decide (k = m)) := by
  rw [BitVec.getLsbD_shiftLeft, BitVec.getLsbD_one]
  by_cases hk : k < 32 <;> by_cases he : k = m <;> simp [hk, he]
  omega

theorem hasBits_bit (word : BitVec 32) {m : ℕ} (hm : m < 32) :
    hasBits word (1#32 <<< m) = word.getLsbD m := by
  unfold hasBits
  have key : (word &&& 1#32 <<< m).getLsbD m = word.getLsbD m := by
    rw [BitVec.getLsbD_and, getLsbD_bit]
    simp [hm]
  cases h : word.getLsbD m with
  | true =>
    have hne : word &&& 1#32 <<< m ≠ 0#32 := by
      intro h0
      rw [h0, h, BitVec.getLsbD_zero] at key
      cases key
    simpa using hne
  | false =>
    have h0 : word &&& 1#32 <<< m = 0#32 := by
      apply BitVec.eq_of_getLsbD_eq
      intro k hk
      rw [BitVec.getLsbD_and, getLsbD_bit, BitVec.getLsbD_zero]
      by_cases he : k = m
      · subst he; simp [h]
      · simp [he]
    rw [h0]
    rfl

theorem hasBits_or (x y bits : BitVec 32) :
    hasBits (x ||| y) bits = (hasBits x bits || hasBits y bits) := by
  unfold hasBits
  rw [BitVec.and_comm, BitVec.and_or_distrib_left, BitVec.and_comm bits x, BitVec.and_comm bits y]
  rw [Bool.eq_iff_iff]
  simp only [bne_iff_ne, ne_eq, Bool.or_eq_true, BitVec.or_eq_zero_iff]
  tauto

/-- The flags of a descriptor word: words of one bit. -/
def IsFlag (flag : BitVec 32) : Prop := ∃ m < 32, flag = 1#32 <<< m

theorem isFlag_descOwn : IsFlag descOwn := ⟨31, by decide, rfl⟩

theorem isFlag_ringEnd : IsFlag ringEnd := ⟨30, by decide, rfl⟩

theorem isFlag_firstFrag : IsFlag firstFrag := ⟨29, by decide, rfl⟩

theorem isFlag_lastFrag : IsFlag lastFrag := ⟨28, by decide, rfl⟩

theorem isFlag_rxRes : IsFlag rxRes := ⟨21, by decide, rfl⟩

theorem hasBits_self {flag : BitVec 32} (h : IsFlag flag) : hasBits flag flag = true := by
  obtain ⟨m, hm, rfl⟩ := h
  rw [hasBits_bit _ hm, getLsbD_bit]
  simp [hm]

/-! No flag of a descriptor word contains another one, and none of them reaches the length. -/

@[simp] theorem hasBits_descOwn_ringEnd : hasBits descOwn ringEnd = false := by decide

@[simp] theorem hasBits_ringEnd_descOwn : hasBits ringEnd descOwn = false := by decide

@[simp] theorem hasBits_firstFrag_ringEnd : hasBits firstFrag ringEnd = false := by decide

@[simp] theorem hasBits_lastFrag_ringEnd : hasBits lastFrag ringEnd = false := by decide

@[simp] theorem hasBits_descOwn_rxRes : hasBits descOwn rxRes = false := by decide

@[simp] theorem hasBits_ringEnd_rxRes : hasBits ringEnd rxRes = false := by decide

@[simp] theorem lenField_descOwn : lenField descOwn = 0#32 := by decide

@[simp] theorem txLenField_descOwn : txLenField descOwn = 0#32 := by decide

@[simp] theorem txLenField_ringEnd : txLenField ringEnd = 0#32 := by decide

@[simp] theorem txLenField_firstFrag : txLenField firstFrag = 0#32 := by decide

@[simp] theorem txLenField_lastFrag : txLenField lastFrag = 0#32 := by decide

theorem hasBits_and {flag : BitVec 32} (h : IsFlag flag) (x y : BitVec 32) :
    hasBits (x &&& y) flag = (hasBits x flag && hasBits y flag) := by
  obtain ⟨m, hm, rfl⟩ := h
  simp only [hasBits_bit _ hm, BitVec.getLsbD_and]

theorem hasBits_not {flag : BitVec 32} (h : IsFlag flag) (x : BitVec 32) :
    hasBits (~~~x) flag = !hasBits x flag := by
  obtain ⟨m, hm, rfl⟩ := h
  simp only [hasBits_bit _ hm, BitVec.getLsbD_not, hm, decide_true, Bool.true_and]

theorem lenField_toNat (word : BitVec 32) : (lenField word).toNat = word.toNat % 2 ^ 14 := by
  unfold lenField
  rw [BitVec.toNat_and]
  exact Nat.and_two_pow_sub_one_eq_mod word.toNat 14

/-- A size of 14 bits is its own length field, and does not reach up to `RingEnd`. -/
theorem lenField_of_lt {size : BitVec 32} (h : size.toNat < 2 ^ 14) : lenField size = size := by
  apply BitVec.eq_of_toNat_eq
  rw [lenField_toNat, Nat.mod_eq_of_lt h]

theorem txLenField_toNat (word : BitVec 32) : (txLenField word).toNat = word.toNat % 2 ^ 16 := by
  unfold txLenField
  rw [BitVec.toNat_and]
  exact Nat.and_two_pow_sub_one_eq_mod word.toNat 16

theorem txLenField_of_lt {size : BitVec 32} (h : size.toNat < 2 ^ 16) : txLenField size = size := by
  apply BitVec.eq_of_toNat_eq
  rw [txLenField_toNat, Nat.mod_eq_of_lt h]

theorem hasBits_ringEnd_of_lt {size : BitVec 32} (h : size.toNat < 2 ^ 14) :
    hasBits size ringEnd = false := by
  have hbit : hasBits size ringEnd = size.getLsbD 30 := hasBits_bit size (by decide)
  rw [hbit, BitVec.getLsbD]
  exact Nat.testBit_lt_two_pow (h.trans (by decide))

theorem lenField_or (x y : BitVec 32) : lenField (x ||| y) = lenField x ||| lenField y := by
  unfold lenField
  rw [BitVec.and_comm, BitVec.and_or_distrib_left, BitVec.and_comm, BitVec.and_comm _ y]

theorem txLenField_or (x y : BitVec 32) :
    txLenField (x ||| y) = txLenField x ||| txLenField y := by
  unfold txLenField
  rw [BitVec.and_comm, BitVec.and_or_distrib_left, BitVec.and_comm, BitVec.and_comm _ y]

/-- `struct Desc`. -/
structure Desc where
  opts1 : BitVec 32
  opts2 : BitVec 32
  addr : BitVec 64
  deriving DecidableEq, Inhabited

namespace Desc

/-- A descriptor after `memset(..., 0x0, ...)`. -/
def zero : Desc := ⟨0#32, 0#32, 0#64⟩

/-- `opts1 & DescOwn`. -/
def own (d : Desc) : Bool := hasBits d.opts1 descOwn

/-- `opts1 & RingEnd`. -/
def eor (d : Desc) : Bool := hasBits d.opts1 ringEnd

/-- `rtl8101_make_unusable_by_asic`. -/
def makeUnusableByAsic (d : Desc) : Desc :=
  { d with addr := 0x0badbadbadbadbad#64, opts1 := d.opts1 &&& ~~~(descOwn ||| 0x3fffc000#32) }

/-- `rtl8101_mark_to_asic`. -/
def markToAsic (d : Desc) (rxBufSz : BitVec 32) : Desc :=
  let eor := d.opts1 &&& ringEnd
  { d with opts1 := descOwn ||| eor ||| rxBufSz }

/-- `rtl8101_map_to_asic`. -/
def mapToAsic (d : Desc) (mapping : BitVec 64) (rxBufSz : BitVec 32) : Desc :=
  { d with addr := mapping }.markToAsic rxBufSz

@[simp] theorem own_zero : zero.own = false := rfl

@[simp] theorem markToAsic_own (d : Desc) (sz : BitVec 32) : (d.markToAsic sz).own = true := by
  unfold own markToAsic
  rw [hasBits_or, hasBits_or, hasBits_self isFlag_descOwn, Bool.true_or, Bool.true_or]

theorem markToAsic_eor (d : Desc) {sz : BitVec 32} (hsz : hasBits sz ringEnd = false) :
    (d.markToAsic sz).eor = d.eor := by
  unfold eor markToAsic
  rw [hasBits_or, hasBits_or, hasBits_and isFlag_ringEnd, hsz, hasBits_self isFlag_ringEnd]
  simp

/-- A marked descriptor offers the NIC the size it is marked with. -/
theorem markToAsic_lenField (d : Desc) (sz : BitVec 32) :
    lenField (d.markToAsic sz).opts1 = lenField sz := by
  have heor : lenField (d.opts1 &&& ringEnd) = 0#32 := by
    rw [lenField, BitVec.and_assoc, show ringEnd &&& 0x00003FFF#32 = 0#32 by decide,
      BitVec.and_zero]
  rw [markToAsic, lenField_or, lenField_or, lenField_descOwn, heor]
  simp

@[simp] theorem markToAsic_addr (d : Desc) (sz : BitVec 32) : (d.markToAsic sz).addr = d.addr := rfl

@[simp] theorem mapToAsic_own (d : Desc) (a : BitVec 64) (sz : BitVec 32) :
    (d.mapToAsic a sz).own = true := markToAsic_own _ _

theorem mapToAsic_eor (d : Desc) (a : BitVec 64) {sz : BitVec 32}
    (hsz : hasBits sz ringEnd = false) : (d.mapToAsic a sz).eor = d.eor := by
  rw [mapToAsic, markToAsic_eor _ hsz]
  rfl

@[simp] theorem mapToAsic_addr (d : Desc) (a : BitVec 64) (sz : BitVec 32) :
    (d.mapToAsic a sz).addr = a := rfl

end Desc

/-- Where the NIC continues after the descriptor `d` at `p`: at the first one after `RingEnd`. -/
def nextPos (p : ℕ) (d : Desc) : ℕ := if d.eor then 0 else p + 1

/-- With `RingEnd` on the last descriptor the NIC moves from one position to the next. -/
theorem nextPos_mod {n p : ℕ} [NeZero n] {d : Desc} (heor : d.eor = decide (p % n + 1 = n)) :
    nextPos (p % n) d = (p + 1) % n := by
  have hmod := Nat.mod_lt p (Nat.pos_of_ne_zero (NeZero.ne n))
  rw [nextPos, heor, ← Nat.mod_add_mod]
  by_cases h : p % n + 1 = n
  · rw [h, Nat.mod_self]
    simp
  · rw [if_neg (by simpa using h), Nat.mod_eq_of_lt (show p % n + 1 < n by omega)]

/-- A ring after `memset`, with `RingEnd` on its last descriptor. -/
def freshRing (n : ℕ) : Fin n → Desc :=
  fun i => if (i : ℕ) + 1 = n then { Desc.zero with opts1 := ringEnd } else Desc.zero

theorem freshRing_own {n : ℕ} (i : Fin n) : (freshRing n i).own = false := by
  unfold freshRing
  split_ifs <;> decide

theorem freshRing_eor {n : ℕ} (i : Fin n) : (freshRing n i).eor = decide ((i : ℕ) + 1 = n) := by
  unfold freshRing
  split_ifs with h
  · rw [decide_eq_true h]; decide
  · rw [decide_eq_false h]; decide

theorem rxBufSize_ringEnd : hasBits rxBufSize ringEnd = false := by decide

/-! ## Received frames -/

/-- A frame as the NIC writes it back: the status word and the bytes stored in the buffer. -/
structure RxFrame where
  status : BitVec 32
  bytes : List (BitVec 8)
  deriving DecidableEq

namespace RxFrame

/-- The NIC reports an error for the frame. -/
def errored (f : RxFrame) : Bool := hasBits f.status rxRes

/-- The descriptor word after the write-back: `DescOwn` clear, `RingEnd` kept. -/
def writeBack (f : RxFrame) (old : BitVec 32) : BitVec 32 :=
  f.status &&& ~~~(descOwn ||| ringEnd) ||| old &&& ringEnd

/-- The NIC reports an error, or the length of what it stored, between the CRC and the size of
the buffer. -/
def WellFormed (f : RxFrame) : Prop :=
  f.errored = true ∨ (lenField f.status).toNat = f.bytes.length ∧ 4 ≤ f.bytes.length ∧
    f.bytes.length ≤ rxBufSize.toNat

instance (f : RxFrame) : Decidable f.WellFormed := inferInstanceAs (Decidable (_ ∨ _ ∧ _ ∧ _))

/-- What the driver hands up of a frame: its bytes without the CRC, nothing for an error. -/
def payload? (f : RxFrame) : Option (List (BitVec 8)) :=
  if f.errored then none else some (f.bytes.take (f.bytes.length - 4))

variable (f : RxFrame) (old : BitVec 32)

theorem hasBits_writeBack {flag : BitVec 32} (h : IsFlag flag) : hasBits (f.writeBack old) flag =
    (hasBits f.status flag && !(hasBits descOwn flag || hasBits ringEnd flag) ||
      hasBits old flag && hasBits ringEnd flag) := by
  unfold writeBack
  rw [hasBits_or, hasBits_and h, hasBits_and h, hasBits_not h, hasBits_or]

theorem writeBack_own : hasBits (f.writeBack old) descOwn = false := by
  rw [hasBits_writeBack f old isFlag_descOwn, hasBits_self isFlag_descOwn]
  simp

theorem writeBack_eor : hasBits (f.writeBack old) ringEnd = hasBits old ringEnd := by
  rw [hasBits_writeBack f old isFlag_ringEnd, hasBits_self isFlag_ringEnd]
  simp

theorem writeBack_rxRes : hasBits (f.writeBack old) rxRes = f.errored := by
  rw [hasBits_writeBack f old isFlag_rxRes]
  simp [errored]

theorem writeBack_lenField : lenField (f.writeBack old) = lenField f.status := by
  have hold : old &&& ringEnd &&& 0x00003FFF#32 = 0#32 := by
    rw [BitVec.and_assoc, show ringEnd &&& 0x00003FFF#32 = 0#32 by decide, BitVec.and_zero]
  have hnew : f.status &&& ~~~(descOwn ||| ringEnd) &&& 0x00003FFF#32 =
      f.status &&& 0x00003FFF#32 := by
    rw [BitVec.and_assoc,
      show ~~~(descOwn ||| ringEnd) &&& 0x00003FFF#32 = 0x00003FFF#32 by decide]
  rw [writeBack, lenField_or, lenField, lenField, hnew, hold, BitVec.or_zero]
  rfl

end RxFrame

/-! ## Buffers and their mappings -/

/-- A socket buffer, as far as the driver uses it: `dma` is the bus address that
`pci_map_single` gives for its data, `tailroom` the room behind its data. -/
structure SkBuff where
  dma : BitVec 64
  len : BitVec 32
  tailroom : BitVec 32
  nrFrags : BitVec 8
  deriving DecidableEq, Inhabited

/-- `dev_alloc_skb(size)`, for the buffer whose data is mapped at `dma`. -/
def devAllocSkb (dma : BitVec 64) (size : BitVec 32) : SkBuff := ⟨dma, 0#32, size, 0#8⟩

/-- `skb_reserve`. -/
def SkBuff.reserve (skb : SkBuff) (len : BitVec 32) : SkBuff :=
  { skb with tailroom := skb.tailroom - len }

/-- `skb_put`. -/
def SkBuff.put (skb : SkBuff) (len : BitVec 32) : SkBuff :=
  { skb with len := skb.len + len, tailroom := skb.tailroom - len }

/-- A streaming DMA mapping: the address and the size given to `pci_unmap_single`. -/
structure Mapping where
  addr : BitVec 64
  size : BitVec 32
  deriving DecidableEq

/-- The outcome of one buffer allocation, given the mappings that are live: `none` when
`dev_alloc_skb` returns `NULL`, else the bus address of the new buffer. `pci_map_single` never
hands out an address that is still mapped. -/
structure Allocator where
  outcome : Multiset Mapping → Option (BitVec 64)
  fresh : ∀ live a, outcome live = some a → ∀ m ∈ live, m.addr ≠ a

namespace Allocator

/-- The allocation that fails. -/
def fail : Allocator := ⟨fun _ => none, fun _ _ h => by cases h⟩

/-- The allocation that succeeds at the address `a`, unless `a` is in use. -/
def atAddr (a : BitVec 64) : Allocator where
  outcome live := if ∀ m ∈ live, m.addr ≠ a then some a else none
  fresh live b h m hm := by
    split_ifs at h with ha
    cases h
    exact ha m hm

end Allocator

end Rtl8101
