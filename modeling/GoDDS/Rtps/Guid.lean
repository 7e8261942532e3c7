import GoDDS.Lib.Bytes

/-!
# Identifiers and sequence numbers

The identifiers of `guid.go` and the sequence numbers of `message.go` and `reliable.go`.
-/

namespace GoDDS

open ByteCodec

abbrev GuidPrefix := FixedBytes 12

abbrev EntityId := FixedBytes 4

structure GUID where
  guidPrefix : GuidPrefix
  entity : EntityId
  deriving DecidableEq

def entityIdUnknown : EntityId := ⟨[0, 0, 0, 0], rfl⟩
def entityIdParticipant : EntityId := ⟨[0, 0, 1, 0xC1], rfl⟩
def entityIdSPDPWriter : EntityId := ⟨[0, 1, 0, 0xC2], rfl⟩
def entityIdSPDPReader : EntityId := ⟨[0, 1, 0, 0xC7], rfl⟩
def entityIdSEDPPubWriter : EntityId := ⟨[0, 0, 3, 0xC2], rfl⟩
def entityIdSEDPPubReader : EntityId := ⟨[0, 0, 3, 0xC7], rfl⟩
def entityIdSEDPSubWriter : EntityId := ⟨[0, 0, 4, 0xC2], rfl⟩
def entityIdSEDPSubReader : EntityId := ⟨[0, 0, 4, 0xC7], rfl⟩

def entityIdForWriter (n : UInt32) : EntityId :=
  ⟨[(n >>> 16).toUInt8, (n >>> 8).toUInt8, n.toUInt8, 3], rfl⟩

def entityIdForReader (n : UInt32) : EntityId :=
  ⟨[(n >>> 16).toUInt8, (n >>> 8).toUInt8, n.toUInt8, 4], rfl⟩

/-- A sequence number travels as a signed high and an unsigned low word. -/
structure SequenceNumber where
  high : Int32
  low : UInt32
  deriving DecidableEq

/-- All bookkeeping packs the two words into one of 64 bits. -/
def snToU64 (sn : SequenceNumber) : UInt64 :=
  sn.high.toUInt32.toUInt64 <<< 32 ||| sn.low.toUInt64

def u64ToSN (v : UInt64) : SequenceNumber :=
  ⟨(v >>> 32).toUInt32.toInt32, v.toUInt32⟩

theorem snToU64_toNat (sn : SequenceNumber) :
    (snToU64 sn).toNat = sn.high.toUInt32.toNat * 2 ^ 32 + sn.low.toNat := by
  have hhi := sn.high.toUInt32.toNat_lt
  have hlo := sn.low.toNat_lt
  have hshift : (sn.high.toUInt32.toUInt64 <<< 32).toNat = sn.high.toUInt32.toNat <<< 32 := by
    rw [UInt64.toNat_shiftLeft, UInt32.toNat_toUInt64]
    show sn.high.toUInt32.toNat <<< 32 % 2 ^ 64 = _
    rw [Nat.shiftLeft_eq, Nat.mod_eq_of_lt (by omega)]
  rw [snToU64, UInt64.toNat_or, hshift, UInt32.toNat_toUInt64,
    ← Nat.shiftLeft_add_eq_or_of_lt hlo, Nat.shiftLeft_eq]

theorem snToU64_u64ToSN (v : UInt64) : snToU64 (u64ToSN v) = v := by
  have hv := v.toNat_lt
  apply UInt64.toNat_inj.1
  rw [snToU64_toNat]
  simp only [u64ToSN, UInt32.toUInt32_toInt32, UInt64.toNat_toUInt32, UInt64.toNat_shiftRight]
  show v.toNat >>> 32 % 2 ^ 32 * 2 ^ 32 + v.toNat % 2 ^ 32 = v.toNat
  rw [Nat.shiftRight_eq_div_pow]
  omega

end GoDDS
