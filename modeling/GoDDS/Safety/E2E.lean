import GoDDS.Lib.Bytes
import GoDDS.Lib.ShiftRegister

/-!
# End-to-end protection
-/

namespace GoDDS.Safety

open ByteCodec ShiftRegister List

def headerSize : Nat := 18

structure E2EConfig where
  dataID : UInt16
  sourceID : UInt16
  maxAge : Int := 0
  topic : Bytes := []

def crc16Bit (crc : UInt16) : UInt16 :=
  if crc &&& 0x8000 ≠ 0 then (crc <<< 1) ^^^ 0x1021 else crc <<< 1

def crc16Byte (crc : UInt16) (b : UInt8) : UInt16 := crc16Bit^[8] (crc ^^^ (b.toUInt16 <<< 8))

/-- CRC-16, polynomial `0x1021`, initially `0xFFFF`: the remainder of a shift register that takes
the bits of every byte from the top down (`toBitVec_crc16`). -/
def crc16 (data : Bytes) : UInt16 := data.foldl crc16Byte 0xFFFF

/-- The check value of CRC-16/CCITT-FALSE, the checksum of the digits one to nine. -/
example : crc16 [0x31, 0x32, 0x33, 0x34, 0x35, 0x36, 0x37, 0x38, 0x39] = 0x29B1 := by decide +kernel

/-! ## Frames -/

/-- The first sixteen bytes: the two identifiers, the counter and the time. -/
def header (cfg : E2EConfig) (counter : UInt32) (now : Int) : Bytes :=
  u16 cfg.dataID ++ u16 cfg.sourceID ++ u32 counter ++ le 8 (now % 2 ^ 64).toNat

/-- The CRC is over the other bytes of the header and the payload. -/
def makeFrame (cfg : E2EConfig) (counter : UInt32) (now : Int) (payload : Bytes) : Bytes :=
  let header := header cfg counter now
  header ++ u16 (crc16 (header ++ payload)) ++ payload

def covered (frame : Bytes) : Bytes := slice frame 0 16 ++ frame.drop headerSize

structure CrcMismatch where
  computed : UInt16
  stored : UInt16
deriving DecidableEq

structure Parsed where
  counter : UInt32
  ts : Int
  payload : Except CrcMismatch Bytes

def parseFrame (data : Bytes) : Parsed :=
  let stored := u16At data 16
  let computed := crc16 (covered data)
  { counter := u32At data 4
    ts := Int.bmod (leVal (slice data 8 16)) (2 ^ 64)
    payload :=
      if computed ≠ stored then .error { computed, stored } else .ok (data.drop headerSize) }

def Accepted (data : Bytes) : Prop := crc16 (covered data) = u16At data 16

theorem parseFrame_error_iff (data : Bytes) :
    (∃ e, (parseFrame data).payload = .error e) ↔ ¬ Accepted data := by
  unfold parseFrame Accepted
  by_cases h : crc16 (covered data) = u16At data 16 <;> simp [h]

variable (cfg : E2EConfig)

@[simp] theorem length_header (counter : UInt32) (now : Int) :
    (header cfg counter now).length = 16 := by
  simp [header, u16, u32]

theorem length_makeFrame (counter : UInt32) (now : Int) (payload : Bytes) :
    (makeFrame cfg counter now payload).length = headerSize + payload.length := by
  simp only [makeFrame, u16, headerSize, length_append, length_header, length_le]

theorem covered_makeFrame (counter : UInt32) (now : Int) (payload : Bytes) :
    covered (makeFrame cfg counter now payload) = header cfg counter now ++ payload := by
  have hcrc (v : UInt16) : (header cfg counter now ++ u16 v).length = headerSize := by
    simp [u16, headerSize]
  unfold covered makeFrame
  rw [drop_left' (hcrc _), append_assoc, slice_here (length_header cfg counter now)]

theorem accepted_makeFrame (counter : UInt32) (now : Int) (payload : Bytes) :
    Accepted (makeFrame cfg counter now payload) := by
  unfold Accepted
  rw [covered_makeFrame, makeFrame, append_assoc,
    u16At_skip (by rw [length_header]), length_header, Nat.sub_self, u16At_here]

theorem parseFrame_makeFrame (counter : UInt32) (now : Int) (payload : Bytes) :
    parseFrame (makeFrame cfg counter now payload) =
      { counter, ts := Int.bmod now (2 ^ 64), payload := .ok payload } := by
  have haccepted := accepted_makeFrame cfg counter now payload
  have hdrop : (makeFrame cfg counter now payload).drop headerSize = payload :=
    drop_left' (by simp [u16, headerSize])
  have hcounter : u32At (makeFrame cfg counter now payload) 4 = counter := by
    unfold makeFrame header
    rw [append_assoc, append_assoc, append_assoc, append_assoc,
      u32At_skip (by simp), u32At_skip (by simp)]
    simp
  have hts : leVal (slice (makeFrame cfg counter now payload) 8 16) = (now % 2 ^ 64).toNat := by
    unfold makeFrame header
    rw [append_assoc, append_assoc, append_assoc, append_assoc,
      slice_skip (by simp), slice_skip (by simp), slice_skip (by simp)]
    simp only [length_u16, length_u32]
    rw [slice_here (by simp), leVal_le_of_lt (by omega)]
  have hnow : Int.bmod (now % 2 ^ 64).toNat (2 ^ 64) = Int.bmod now (2 ^ 64) := by
    rw [Int.toNat_of_nonneg (by omega)]
    exact Int.emod_bmod now (2 ^ 64)
  unfold Accepted at haccepted
  simp only [parseFrame, hdrop, hcounter, hts, haccepted, hnow, ne_eq, not_true, if_false]

/-! ## The checksum as a remainder -/

def byteBits (b : UInt8) : List Bool := (List.range 8).map b.toBitVec.getMsbD

def bits (data : Bytes) : List Bool := data.flatMap byteBits

@[simp] theorem length_byteBits (b : UInt8) : (byteBits b).length = 8 := by simp [byteBits]

theorem length_bits (data : Bytes) : (bits data).length = 8 * data.length := by
  induction data with
  | nil => rfl
  | cons b data ih =>
    rw [bits, flatMap_cons, length_append, length_byteBits, ← bits, ih, length_cons]
    omega

theorem bits_append (as bs : Bytes) : bits (as ++ bs) = bits as ++ bits bs := flatMap_append

def poly : BitVec 16 := 0x1021

theorem toBitVec_crc16Bit (crc : UInt16) : (crc16Bit crc).toBitVec = shift poly crc.toBitVec := by
  have htop : crc &&& 0x8000 ≠ 0 ↔ crc.toBitVec.msb = true := by
    rw [Ne, ← UInt16.toBitVec_inj, UInt16.toBitVec_and]
    show ¬ crc.toBitVec &&& BitVec.twoPow 16 15 = 0#16 ↔ _
    rw [BitVec.and_twoPow, BitVec.msb_eq_getLsbD_last]
    cases crc.toBitVec.getLsbD 15 <;> simp
  unfold crc16Bit shift
  by_cases h : crc.toBitVec.msb
  · rw [if_pos (htop.2 h), if_pos h]
    rfl
  · rw [if_neg (mt htop.1 h), if_neg h]
    rfl

theorem toBitVec_crc16Bit_iterate (n : Nat) (crc : UInt16) :
    (crc16Bit^[n] crc).toBitVec = (shift poly)^[n] crc.toBitVec := by
  induction n generalizing crc with
  | zero => rfl
  | succ n ih => rw [Function.iterate_succ_apply, ih, toBitVec_crc16Bit]; rfl

theorem pack_byteBits (b : UInt8) : pack 16 (byteBits b) = (b.toUInt16 <<< 8).toBitVec := by
  have h : ∀ v : BitVec 8, pack 16 ((List.range 8).map v.getMsbD) = v.setWidth 16 <<< 8 := by
    decide +kernel
  exact h b.toBitVec

theorem toBitVec_crc16Byte (crc : UInt16) (b : UInt8) :
    (crc16Byte crc b).toBitVec = remainder poly crc.toBitVec (byteBits b) := by
  rw [crc16Byte, toBitVec_crc16Bit_iterate, remainder_eq_pack (by simp), length_byteBits,
    UInt16.toBitVec_xor, pack_byteBits]

theorem toBitVec_foldl_crc16Byte (data : Bytes) (crc : UInt16) :
    (data.foldl crc16Byte crc).toBitVec = remainder poly crc.toBitVec (bits data) := by
  induction data generalizing crc with
  | nil => rfl
  | cons b data ih =>
    rw [foldl_cons, ih, toBitVec_crc16Byte, ← remainder_append]
    rfl

theorem toBitVec_crc16 (data : Bytes) :
    (crc16 data).toBitVec = remainder poly 0xFFFF#16 (bits data) :=
  toBitVec_foldl_crc16Byte data 0xFFFF

theorem crc16_eq_iff {as bs : Bytes} (hlen : as.length = bs.length) :
    crc16 as = crc16 bs ↔ remainder poly 0#16 (diff (bits as) (bits bs)) = 0#16 := by
  rw [← UInt16.toBitVec_inj, toBitVec_crc16, toBitVec_crc16]
  exact remainder_diff (by rw [length_bits, length_bits, hlen]) _

theorem poly_constant_term : poly.getLsbD 0 = true := by decide

theorem weight_poly : weight poly = 1 := by decide

theorem top_does_not_return {d : Nat} (hd : d < 32766) :
    (shift poly)^[d + 1] (top 16 true) ≠ top 16 true := by
  have hpow : 2 ^ (16 - 1) = 0x8000 := rfl
  have hpoly : poly.toNat = 0x1021 := rfl
  have htop : (top 16 true).toNat = 0x8000 := rfl
  have hfirst : (shift poly (top 16 true)).toNat = 0x1021 := rfl
  rw [Function.iterate_succ_apply]
  refine iterate_ne_of_avoids (by decide) ?_ hd
  rw [hpow, hpoly, htop, hfirst]
  decide +kernel

theorem weight_byte (b : UInt8) : weight b.toBitVec = parity (byteBits b) := by
  have h : ∀ v : BitVec 8, weight v = parity ((List.range 8).map v.getMsbD) := by decide +kernel
  exact h b.toBitVec

theorem weight_u16At {data : Bytes} (hlen : headerSize ≤ data.length) :
    weight (u16At data 16).toBitVec = parity (bits (slice data 16 18)) := by
  obtain ⟨x, y, hxy⟩ := length_eq_two.1 (length_slice (i := 16) (j := 18) hlen)
  have hword : (u16At data 16).toBitVec = y.toBitVec ++ x.toBitVec := by
    apply BitVec.eq_of_toNat_eq
    have hx := x.toNat_lt
    have hy := y.toNat_lt
    rw [BitVec.toNat_append, ← Nat.shiftLeft_add_eq_or_of_lt x.toBitVec.isLt, u16At, hxy]
    simp [leVal, Nat.ofDigits, Nat.shiftLeft_eq]
    omega
  rw [hword, weight_append, weight_byte, weight_byte, hxy, bits, flatMap_cons,
    flatMap_cons, flatMap_nil, append_nil, parity_append, add_comm]

theorem parity_frame (data : Bytes) :
    parity (bits data) = parity (bits (covered data)) + parity (bits (slice data 16 18)) := by
  have hsplit : data = slice data 0 16 ++ slice data 16 18 ++ data.drop headerSize := by
    have hfront : slice data 0 16 ++ slice data 16 18 = data.take 18 := by
      have htake : slice data 0 16 = (data.take 18).take 16 := by
        simp [slice, take_take]
      rw [htake, slice, take_append_drop]
    rw [hfront, headerSize, take_append_drop]
  conv_lhs => rw [hsplit]
  rw [covered, bits_append, bits_append, bits_append, parity_append, parity_append, parity_append]
  ring

theorem parity_accepted {data : Bytes} (hlen : headerSize ≤ data.length) (h : Accepted data) :
    parity (bits data) = 0 := by
  have hinit : weight 0xFFFF#16 = 0 := by decide
  rw [parity_frame, ← weight_u16At hlen, ← h, toBitVec_crc16,
    weight_remainder (by decide) weight_poly, hinit, zero_add]
  exact CharTwo.add_self_eq_zero _

/-! ## Errors in frames -/

def SameCRC (frame data : Bytes) : Prop := slice frame 16 18 = slice data 16 18
  deriving Decidable

def errors (frame data : Bytes) : List Bool := diff (bits (covered frame)) (bits (covered data))

/-- The checksum is intact and the errors lie within sixteen consecutive bits. -/
def Burst (frame data : Bytes) : Prop :=
  SameCRC frame data ∧ ∃ i j burst, burst.length ≤ 16 ∧ true ∈ burst ∧
    errors frame data = List.replicate i false ++ burst ++ List.replicate j false

/-- An odd number of bits anywhere is flipped. -/
def OddFlips (frame data : Bytes) : Prop := Odd ((diff (bits frame) (bits data)).count true)

/-- The checksum is intact and two bits are flipped, in a frame that is not too long. -/
def TwoFlips (frame data : Bytes) : Prop :=
  frame.length ≤ 4095 ∧ SameCRC frame data ∧ (errors frame data).count true = 2
  deriving Decidable

section Pair

variable {frame data : Bytes} (hlen : data.length = frame.length)

include hlen

theorem length_covered_eq : (covered frame).length = (covered data).length := by
  simp [covered, slice, hlen]

theorem remainder_errors (hframe : Accepted frame) (hdata : Accepted data)
    (hcrc : SameCRC frame data) : remainder poly 0#16 (errors frame data) = 0#16 := by
  have hstored : u16At frame 16 = u16At data 16 := by
    unfold u16At
    rw [show slice frame 16 (16 + 2) = slice data 16 (16 + 2) from hcrc]
  exact (crc16_eq_iff (length_covered_eq hlen)).1 (hframe.trans (hstored.trans hdata.symm))

theorem not_burst (hframe : Accepted frame) (hdata : Accepted data) : ¬ Burst frame data := by
  rintro ⟨hcrc, i, j, burst, hshort, hburst, heq⟩
  have hzero := remainder_errors hlen hframe hdata hcrc
  rw [heq] at hzero
  exact remainder_burst poly_constant_term hshort hburst i j hzero

theorem not_oddFlips (hsize : headerSize ≤ frame.length) (hframe : Accepted frame)
    (hdata : Accepted data) : ¬ OddFlips frame data := by
  intro hodd
  have hbits : (bits frame).length = (bits data).length := by rw [length_bits, length_bits, hlen]
  have hparity := parity_diff hbits
  rw [parity_accepted hsize hframe, parity_accepted (hlen ▸ hsize) hdata, parity_eq_count,
    add_zero, ZMod.natCast_eq_zero_iff_even] at hparity
  exact Nat.not_even_iff_odd.2 hodd hparity

theorem not_twoFlips (hframe : Accepted frame) (hdata : Accepted data) : ¬ TwoFlips frame data := by
  rintro ⟨hsize, hcrc, hcount⟩
  have hbits : (errors frame data).length ≤ 8 * frame.length := by
    have hdrop : (covered frame).length ≤ frame.length := by
      simp only [covered, slice, headerSize, length_append, length_drop, length_take]
      omega
    have hdiff : (errors frame data).length ≤ (bits (covered frame)).length := by
      simp [errors, diff]
    rw [length_bits] at hdiff
    omega
  refine remainder_two_flips poly_constant_term hcount (fun d hd => ?_)
    (remainder_errors hlen hframe hdata hcrc)
  exact top_does_not_return (by omega)

end Pair

/-- Of two frames of one length, one of them made by `makeFrame`, `parseFrame` rejects the other
if they differ in a burst, in an odd number of bits, or in two bits of a frame of at most 4095
bytes. -/
theorem makeFrame_errors_detected (cfg : E2EConfig) (counter : UInt32) (now : Int)
    (payload data : Bytes) (hlen : data.length = (makeFrame cfg counter now payload).length)
    (herror : Burst (makeFrame cfg counter now payload) data ∨
      OddFlips (makeFrame cfg counter now payload) data ∨
      TwoFlips (makeFrame cfg counter now payload) data) :
    ∃ e, (parseFrame data).payload = .error e := by
  have hframe := accepted_makeFrame cfg counter now payload
  have hsize : headerSize ≤ (makeFrame cfg counter now payload).length := by
    rw [length_makeFrame]
    exact Nat.le_add_right _ _
  rw [parseFrame_error_iff]
  intro hdata
  rcases herror with h | h | h
  · exact not_burst hlen hframe hdata h
  · exact not_oddFlips hlen hsize hframe hdata h
  · exact not_twoFlips hlen hframe hdata h

theorem makeFrame_errors_detected_payload :
    let frame := makeFrame { dataID := 1, sourceID := 2 } 1 0 [0x41]
    let data := frame.take headerSize ++ [0x42]
    TwoFlips frame data ∧ ∃ e, (parseFrame data).payload = .error e := by
  intro frame data
  have htwo : TwoFlips frame data := by decide +kernel
  have hlen : data.length = frame.length := by decide +kernel
  exact ⟨htwo, makeFrame_errors_detected _ 1 0 [0x41] data hlen (.inr (.inr htwo))⟩

end GoDDS.Safety
