import GoDDS.Rtps.Message
import GoDDS.Rtps.Qos

/-!
# Parameter lists

The PL_CDR encoding of `cdr.go`.
-/

namespace GoDDS

open ByteCodec Go List UInt32

def pidPad : UInt16 := 0x0000
def pidSentinel : UInt16 := 0x0001
def pidParticipantLeaseDuration : UInt16 := 0x0002
def pidTopicName : UInt16 := 0x0005
def pidTypeName : UInt16 := 0x0007
def pidProtocolVersion : UInt16 := 0x0015
def pidVendorId : UInt16 := 0x0016
def pidDefaultUnicastLocator : UInt16 := 0x002f
def pidMetatrafficUnicastLocator : UInt16 := 0x0032
def pidParticipantGUID : UInt16 := 0x0050
def pidBuiltinEndpointSet : UInt16 := 0x0058
def pidEndpointGUID : UInt16 := 0x005A
def pidDiscoveryToken : UInt16 := 0x8001
def pidEndpointToken : UInt16 := 0x8002
def pidPartition : UInt16 := 0x8004
def pidOwnership : UInt16 := 0x8005
def pidOwnershipStrength : UInt16 := 0x8006
def pidLivelinessLeaseDuration : UInt16 := 0x8007
def pidRelayID : UInt16 := 0x8008
def pidContentFilterExpr : UInt16 := 0x8009
def pidContentFilterParam : UInt16 := 0x800A

structure Param where
  pid : UInt16
  value : Bytes
  deriving DecidableEq

def padded (value : Bytes) : Bytes :=
  value ++ List.replicate ((value.length + 3) / 4 * 4 - value.length) 0

/-- The padding counts as part of the value. -/
def encodeParam (pid : UInt16) (value : Bytes) : Bytes :=
  u16 pid ++ (u16 (UInt16.ofNat (padded value).length) ++ padded value)

structure PLCDREncoder where
  buf : Bytes

namespace PLCDREncoder

def new : PLCDREncoder := ⟨be 2 plCDRLE.toNat ++ [0, 0]⟩

def addParam (e : PLCDREncoder) (pid : UInt16) (value : Bytes) : PLCDREncoder :=
  ⟨e.buf ++ encodeParam pid value⟩

def addUint32 (e : PLCDREncoder) (pid : UInt16) (v : UInt32) : PLCDREncoder :=
  e.addParam pid (u32 v)

def addInt64 (e : PLCDREncoder) (pid : UInt16) (v : Int64) : PLCDREncoder :=
  e.addParam pid (le 8 v.toUInt64.toNat)

def addLocator (e : PLCDREncoder) (pid : UInt16) (l : Locator) : PLCDREncoder :=
  e.addParam pid (marshalLocator l)

def addGUID (e : PLCDREncoder) (pid : UInt16) (g : GUID) : PLCDREncoder :=
  e.addParam pid (g.guidPrefix.toBytes ++ g.entity.toBytes)

def addString (e : PLCDREncoder) (pid : UInt16) (s : Str) : PLCDREncoder :=
  e.addParam pid (u32 (UInt32.ofNat (s.length + 1)) ++ (s ++ [0]))

def finish (e : PLCDREncoder) : Bytes := e.buf ++ (u16 pidSentinel ++ [0, 0])

end PLCDREncoder

def newPLCDRDecoder (b : Bytes) : Option Bytes :=
  if b.length < 4 then none else if u16BEAt b 0 ≠ plCDRLE then none else some (b.drop 4)

def nextParam : Bytes → Option (Param × Bytes)
  | p₀ :: p₁ :: l₀ :: l₁ :: rest =>
    let pid := u16At [p₀, p₁] 0
    let length := (u16At [l₀, l₁] 0).toNat
    if pid = pidSentinel then none
    else if pid = pidPad then nextParam rest
    else if length > rest.length then none
    else some (⟨pid, rest.take length⟩, rest.drop length)
  | _ => none

/-- The decoder ends at the sentinel or at a parameter that does not fit; of a padding parameter it
skips the header only. -/
def paramsFuel : Nat → Bytes → List Param
  | 0, _ => []
  | fuel + 1, b =>
    match nextParam b with
    | none => []
    | some (p, rest) => p :: paramsFuel fuel rest

/-- The parameters the decoder hands out. Each takes at least four bytes, so the length is enough
fuel. -/
def params (b : Bytes) : List Param := paramsFuel b.length b

def paramsOf (payload : Bytes) : Option (List Param) := (newPLCDRDecoder payload).map params

def decodeString (b : Bytes) : Option Str :=
  if b.length < 4 then none
  else
    let n := (u32At b 0).toNat
    if b.length < 4 + n then none
    else
      let s := slice b 4 (4 + n)
      some (if s.getLast? = some 0 then s.dropLast else s)

def decodeGUID (b : Bytes) : Option GUID :=
  if b.length < 16 then none
  else some ⟨FixedBytes.copy 12 (slice b 0 12), FixedBytes.copy 4 (slice b 12 16)⟩

def decodeUint32 (b : Bytes) : Option UInt32 := if b.length < 4 then none else some (u32At b 0)

def decodeInt64 (b : Bytes) : Option Int64 :=
  if b.length < 8 then none else some (UInt64.ofNat (leVal (slice b 0 8))).toInt64

/-! ## Reading a value back -/

theorem length_le_padded (value : Bytes) : value.length ≤ (padded value).length := by
  simp [padded]

variable {b value : Bytes}

theorem padded_of_dvd (h : 4 ∣ value.length) : padded value = value := by
  have hzero : (value.length + 3) / 4 * 4 - value.length = 0 := by omega
  rw [padded, hzero, replicate_zero, append_nil]

theorem decodeUint32_padded (v : UInt32) : decodeUint32 (padded (u32 v)) = some v := by
  rw [padded_of_dvd (by simp), decodeUint32, if_neg (by simp), u32At_here_end]

theorem decodeInt64_padded (v : Int64) : decodeInt64 (padded (le 8 v.toUInt64.toNat)) = some v := by
  have hlt : v.toUInt64.toNat < 256 ^ 8 := v.toUInt64.toNat_lt
  rw [padded_of_dvd (by simp), decodeInt64, if_neg (by simp), slice_all (by simp), leVal_le_of_lt hlt]
  simp

theorem decodeGUID_padded (g : GUID) :
    decodeGUID (padded (g.guidPrefix.toBytes ++ g.entity.toBytes)) = some g := by
  have hlen : (g.guidPrefix.toBytes ++ g.entity.toBytes).length = 16 := by simp
  have hpad : padded (g.guidPrefix.toBytes ++ g.entity.toBytes) =
      g.guidPrefix.toBytes ++ g.entity.toBytes := by
    rw [padded, hlen]
    exact append_nil _
  have hentity : slice (g.guidPrefix.toBytes ++ g.entity.toBytes) 12 16 = g.entity.toBytes := by
    rw [slice_skip (by simp)]
    simp [slice_all]
  rw [hpad, decodeGUID, if_neg (by omega), slice_here (by simp), hentity, FixedBytes.copy_toBytes,
    FixedBytes.copy_toBytes]

theorem unmarshalLocator_padded (l : Locator) :
    unmarshalLocator (padded (marshalLocator l)) = some l := by
  have hlen : (marshalLocator l).length = 24 := by simp [marshalLocator]
  have hport : u32At (marshalLocator l) 4 = l.port := by
    rw [marshalLocator, u32At_skip (by simp)]
    simp [u32At_here]
  have haddress : slice (marshalLocator l) 8 24 = l.address.toBytes := by
    rw [marshalLocator, slice_skip (by simp), slice_skip (by simp)]
    simp [slice_all]
  have hkind : u32At (marshalLocator l) 0 = l.kind.toUInt32 := by rw [marshalLocator, u32At_here]
  rw [padded_of_dvd (by omega), unmarshalLocator, if_neg (by omega), hkind, hport, haddress,
    FixedBytes.copy_toBytes]
  simp

theorem decodeString_append {s : Str} (h : s.length < 4294967295) (rest : Bytes) :
    decodeString (u32 (ofNat (s.length + 1)) ++ ((s ++ [0]) ++ rest)) = some s := by
  have hn : (ofNat (s.length + 1)).toNat = s.length + 1 :=
    toNat_ofNat_of_lt' (by simp only [size]; omega)
  have hslice : slice (u32 (ofNat (s.length + 1)) ++ ((s ++ [0]) ++ rest)) 4
      (4 + (s.length + 1)) = s ++ [0] := by
    rw [slice_skip (by simp), length_u32, Nat.sub_self, Nat.add_sub_cancel_left,
      slice_here (by simp)]
  rw [decodeString, if_neg (by simp)]
  dsimp only
  rw [u32At_here, hn, if_neg (by simp), hslice, if_pos getLast?_concat, dropLast_concat]

theorem decodeString_padded {s : Str} (h : s.length < 4294967295) :
    decodeString (padded (u32 (ofNat (s.length + 1)) ++ (s ++ [0]))) = some s := by
  rw [padded, append_assoc]
  exact decodeString_append h _

/-! ## Reading a list back -/

theorem length_of_nextParam {p : Param} {rest : Bytes} (h : nextParam b = some (p, rest)) :
    rest.length + 4 ≤ b.length := by
  fun_induction nextParam b with
  | case1 => cases h
  | case2 p₀ p₁ l₀ l₁ tail pid hsent hpad ih =>
    have hlen := ih h
    simp only [length_cons]
    omega
  | case3 => cases h
  | case4 p₀ p₁ l₀ l₁ tail pid length hsent hpad hfit =>
    obtain ⟨-, rfl⟩ := Prod.mk.inj (Option.some.inj h)
    simp only [length_cons, length_drop]
    omega
  | case5 => cases h

theorem paramsFuel_mono {n m : Nat} (hn : b.length ≤ n) (hm : b.length ≤ m) :
    paramsFuel n b = paramsFuel m b := by
  induction n generalizing m b with
  | zero =>
    obtain rfl : b = [] := length_eq_zero_iff.1 (by omega)
    cases m <;> rfl
  | succ n ih =>
    cases m with
    | zero =>
      obtain rfl : b = [] := length_eq_zero_iff.1 (by omega)
      rfl
    | succ m =>
      rw [paramsFuel, paramsFuel]
      cases hnext : nextParam b with
      | none => rfl
      | some r =>
        have hlen := length_of_nextParam hnext
        dsimp only
        rw [ih (m := m) (by omega) (by omega)]

theorem params_of_nextParam {p : Param} {rest : Bytes} (h : nextParam b = some (p, rest)) :
    params b = p :: params rest := by
  have hlen := length_of_nextParam h
  obtain ⟨n, hn⟩ := Nat.exists_eq_add_of_le' (show 1 ≤ b.length by omega)
  rw [params, hn, paramsFuel, h]
  dsimp only
  rw [paramsFuel_mono (m := rest.length) (by omega) le_rfl]
  rfl

theorem nextParam_header (pid n : UInt16) (rest : Bytes) (hsent : pid ≠ pidSentinel)
    (hpad : pid ≠ pidPad) (hlen : n.toNat ≤ rest.length) : nextParam (u16 pid ++ (u16 n ++ rest)) =
      some (⟨pid, rest.take n.toNat⟩, rest.drop n.toNat) := by
  have hbytes : ∀ v : UInt16, u16 v = [UInt8.ofNat v.toNat, UInt8.ofNat (v.toNat / 256)] :=
    fun _ => rfl
  have hread : ∀ v : UInt16, u16At [UInt8.ofNat v.toNat, UInt8.ofNat (v.toNat / 256)] 0 = v := by
    intro v
    rw [← hbytes, ← append_nil (u16 v), u16At_here]
  rw [hbytes, hbytes]
  simp only [cons_append, nil_append, nextParam, hread]
  rw [if_neg hsent, if_neg hpad, if_neg (by omega)]

/-- A parameter is read back with its padding, if its length fits the length field and its id is
neither that of the sentinel nor that of padding. -/
theorem params_encodeParam {pid : UInt16} (hsent : pid ≠ pidSentinel) (hpad : pid ≠ pidPad)
    (hlen : (padded value).length < 65536) (rest : Bytes) :
    params (encodeParam pid value ++ rest) = ⟨pid, padded value⟩ :: params rest := by
  have hn : (UInt16.ofNat (padded value).length).toNat = (padded value).length :=
    UInt16.toNat_ofNat_of_lt' hlen
  refine params_of_nextParam ?_
  rw [encodeParam, append_assoc, append_assoc, nextParam_header _ _ _ hsent hpad, hn,
    take_left, drop_left]
  rw [hn, length_append]
  omega

theorem params_sentinel : params (u16 pidSentinel ++ [0, 0]) = [] := by decide

/-- The parameters of a finished list, in the order they were added. -/
def PLCDREncoder.Holds (e : PLCDREncoder) (ps : List Param) : Prop :=
  ∀ rest, paramsOf (e.buf ++ rest) = some (ps ++ params rest)

namespace PLCDREncoder

theorem holds_new : new.Holds [] := by
  intro rest
  have hscheme : u16BEAt (new.buf ++ rest) 0 = plCDRLE := by
    rw [u16BEAt, new, append_assoc, slice_here (length_be _ _)]
    rfl
  have hlen : ¬ (new.buf ++ rest).length < 4 := by
    simp only [new, length_append, length_be, length_cons]
    omega
  rw [paramsOf, newPLCDRDecoder, if_neg hlen, if_neg (not_not_intro hscheme),
    drop_left' (by simp [new])]
  rfl

theorem holds_addParam {e : PLCDREncoder} {ps : List Param} (h : e.Holds ps) {pid : UInt16}
    (hsent : pid ≠ pidSentinel) (hpad : pid ≠ pidPad) (hlen : (padded value).length < 65536) :
    (e.addParam pid value).Holds (ps ++ [⟨pid, padded value⟩]) := by
  intro rest
  rw [addParam, append_assoc, h, params_encodeParam hsent hpad hlen, append_assoc]
  rfl

theorem paramsOf_finish {e : PLCDREncoder} {ps : List Param} (h : e.Holds ps) :
    paramsOf e.finish = some ps := by
  rw [finish, h, params_sentinel, append_nil]

end PLCDREncoder

end GoDDS
