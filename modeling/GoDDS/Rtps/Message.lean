import GoDDS.Lib.Go
import GoDDS.Rtps.Guid

/-!
# RTPS messages

The wire format of `message.go`. The source has no parser for a GAP.
-/

namespace GoDDS

open ByteCodec Go List FixedBytes

def rtpsMagic : Bytes := str "RTPS"

def goVendorId : FixedBytes 2 := ⟨[0x01, 0x27], rfl⟩

/-- The first 20 bytes of a message. -/
structure Header where
  protocolVersion : FixedBytes 2
  vendorId : FixedBytes 2
  guidPrefix : GuidPrefix

def marshalHeader (h : Header) : Bytes :=
  rtpsMagic ++ (h.protocolVersion.toBytes ++ (h.vendorId.toBytes ++ h.guidPrefix.toBytes))

def parseHeader (b : Bytes) : Option Header :=
  if b.length < 20 then none
  else if slice b 0 4 ≠ rtpsMagic then none
  else some
    { protocolVersion := FixedBytes.copy 2 (slice b 4 6)
      vendorId := FixedBytes.copy 2 (slice b 6 8)
      guidPrefix := FixedBytes.copy 12 (slice b 8 20) }

def wrapHeader (guidPrefix : GuidPrefix) : Header :=
  { protocolVersion := ⟨[2, 3], rfl⟩, vendorId := goVendorId, guidPrefix := guidPrefix }

def wrapInRTPSMessage (guidPrefix : GuidPrefix) (submessages : Bytes) : Bytes :=
  marshalHeader (wrapHeader guidPrefix) ++ submessages

@[simp] theorem length_rtpsMagic : rtpsMagic.length = 4 := by decide

@[simp] theorem length_marshalHeader (h : Header) : (marshalHeader h).length = 20 := by
  simp [marshalHeader]

theorem parseHeader_marshalHeader (h : Header) (b : Bytes) :
    parseHeader (marshalHeader h ++ b) = some h := by
  have hlen : ¬ (marshalHeader h ++ b).length < 20 := by simp
  have hmagic : slice (marshalHeader h ++ b) 0 4 = rtpsMagic := by
    simp [marshalHeader, slice_here]
  have hver : slice (marshalHeader h ++ b) 4 6 = h.protocolVersion.toBytes := by
    simp [marshalHeader, slice_skip, slice_here]
  have hven : slice (marshalHeader h ++ b) 6 8 = h.vendorId.toBytes := by
    simp [marshalHeader, slice_skip, slice_here]
  have hpfx : slice (marshalHeader h ++ b) 8 20 = h.guidPrefix.toBytes := by
    simp [marshalHeader, slice_skip, slice_here]
  rw [parseHeader, if_neg hlen, if_neg (not_not_intro hmagic), hver, hven, hpfx]
  simp only [copy_toBytes]

theorem parseHeader_wrapInRTPSMessage (guidPrefix : GuidPrefix) (b : Bytes) :
    parseHeader (wrapInRTPSMessage guidPrefix b) = some (wrapHeader guidPrefix) :=
  parseHeader_marshalHeader _ _

theorem drop_wrapInRTPSMessage (guidPrefix : GuidPrefix) (b : Bytes) :
    (wrapInRTPSMessage guidPrefix b).drop 20 = b := by
  rw [wrapInRTPSMessage, drop_left' (length_marshalHeader _)]

/-! ## Submessage framing -/

def submsgDATA : UInt8 := 0x15
def submsgGAP : UInt8 := 0x08
def submsgHEARTBEAT : UInt8 := 0x07
def submsgACKNACK : UInt8 := 0x06
def submsgINFO_TS : UInt8 := 0x09

def flagEndianness : UInt8 := 0x01

def flagData : UInt8 := 0x04

def hbFlagLiveliness : UInt8 := 0x04

/-- A submessage is read back if its body is at most 65535 bytes long (`parseSubmessages_frame`);
for a longer one see `parseSubmessages_header`. -/
structure Submessage where
  id : UInt8
  flags : UInt8
  body : Bytes

structure FramingError where
  length : Nat
  remaining : Nat

/-- The length field is the body length truncated to 16 bits. -/
def frame (id flags : UInt8) (body : Bytes) : Bytes :=
  id :: flags :: (u16 (UInt16.ofNat body.length) ++ body)

def octetsToNextHeader (flags l₀ l₁ : UInt8) : Nat :=
  if flags &&& flagEndianness ≠ 0 then (u16At [l₀, l₁] 0).toNat else (u16BEAt [l₀, l₁] 0).toNat

/-- The submessages handed to the callback, and the framing error that ended the scan. Big-endian
ones are stepped over. `fuel` bounds their number. -/
def parseSubmessagesFuel : Nat → Bytes → List Submessage × Option FramingError
  | fuel + 1, id :: flags :: l₀ :: l₁ :: rest =>
    let length := octetsToNextHeader flags l₀ l₁
    if length > rest.length then ([], some ⟨length, rest.length⟩)
    else
      let tail := parseSubmessagesFuel fuel (rest.drop length)
      if flags &&& flagEndianness ≠ 0 then (⟨id, flags, rest.take length⟩ :: tail.1, tail.2)
      else tail
  | _, _ => ([], none)

/-- The submessages of a message body. Each takes at least four bytes, so the body's length is
enough fuel. -/
def parseSubmessages (body : Bytes) : List Submessage × Option FramingError :=
  parseSubmessagesFuel body.length body

variable {b p : Bytes}

theorem parseSubmessagesFuel_mono {n m : Nat} (hn : b.length ≤ n) (hm : b.length ≤ m) :
    parseSubmessagesFuel n b = parseSubmessagesFuel m b := by
  induction n generalizing m b with
  | zero =>
    have hb : b = [] := length_eq_zero_iff.1 (by omega)
    subst hb
    cases m <;> rfl
  | succ n ih =>
    cases m with
    | zero =>
      have hb : b = [] := length_eq_zero_iff.1 (by omega)
      subst hb
      rfl
    | succ m =>
      match b with
      | [] | [_] | [_, _] | [_, _, _] => rfl
      | id :: flags :: l₀ :: l₁ :: rest =>
        simp only [length_cons] at hn hm
        simp only [parseSubmessagesFuel]
        rw [ih (m := m) (by simp; omega) (by simp; omega)]

theorem parseSubmessages_cons (id flags l₀ l₁ : UInt8) (rest : Bytes) :
    parseSubmessages (id :: flags :: l₀ :: l₁ :: rest) =
      let length := octetsToNextHeader flags l₀ l₁
      let tail := parseSubmessages (rest.drop length)
      if length > rest.length then ([], some ⟨length, rest.length⟩)
      else if flags &&& flagEndianness ≠ 0 then (⟨id, flags, rest.take length⟩ :: tail.1, tail.2)
      else tail := by
  have hfuel : parseSubmessagesFuel (rest.length + 3)
      (rest.drop (octetsToNextHeader flags l₀ l₁)) = parseSubmessages _ :=
    parseSubmessagesFuel_mono (by simp; omega) le_rfl
  simp only [parseSubmessages, length_cons, parseSubmessagesFuel]
  rw [hfuel]
  rfl

theorem octetsToNextHeader_le {flags : UInt8} {n : Nat} (hflags : flags &&& flagEndianness ≠ 0)
    (hn : n < 65536) : octetsToNextHeader flags (UInt8.ofNat n) (UInt8.ofNat (n / 256)) = n := by
  rw [octetsToNextHeader, if_pos hflags, u16At]
  change (UInt16.ofNat (leVal (slice (le 2 n) 0 2))).toNat = n
  rw [slice_all (length_le 2 n), leVal_le_of_lt hn, UInt16.toNat_ofNat_of_lt' hn]

theorem parseSubmessages_header (id flags : UInt8) (n : UInt16) (rest : Bytes)
    (hflags : flags &&& flagEndianness ≠ 0) : parseSubmessages (id :: flags :: (u16 n ++ rest)) =
      if n.toNat > rest.length then ([], some ⟨n.toNat, rest.length⟩) else
        (⟨id, flags, rest.take n.toNat⟩ :: (parseSubmessages (rest.drop n.toNat)).1,
          (parseSubmessages (rest.drop n.toNat)).2) := by
  have hn : u16 n = [UInt8.ofNat n.toNat, UInt8.ofNat (n.toNat / 256)] := rfl
  rw [hn, cons_append, cons_append, nil_append, parseSubmessages_cons,
    octetsToNextHeader_le hflags n.toNat_lt]
  dsimp only
  rw [if_pos hflags]

theorem parseSubmessages_frame (id flags : UInt8) (body rest : Bytes)
    (hflags : flags &&& flagEndianness ≠ 0) (hlen : body.length < 65536) :
    parseSubmessages (frame id flags body ++ rest) =
      (⟨id, flags, body⟩ :: (parseSubmessages rest).1, (parseSubmessages rest).2) := by
  have hn : (UInt16.ofNat body.length).toNat = body.length :=
    UInt16.toNat_ofNat_of_lt' hlen
  have hle : ¬ body.length > (body ++ rest).length := by simp
  simp only [frame, cons_append, append_assoc]
  rw [parseSubmessages_header id flags _ _ hflags, hn, if_neg hle, take_left, drop_left]

theorem length_body_lt_fuel {fuel : Nat} {s : Submessage} (h : s ∈ (parseSubmessagesFuel fuel b).1) :
    s.body.length < 65536 := by
  induction fuel generalizing b with
  | zero => simp [parseSubmessagesFuel] at h
  | succ fuel ih =>
    match b with
    | [] | [_] | [_, _] | [_, _, _] => simp [parseSubmessagesFuel] at h
    | id :: flags :: l₀ :: l₁ :: rest =>
      have hn : octetsToNextHeader flags l₀ l₁ < 65536 := by
        unfold octetsToNextHeader
        split_ifs
        · exact (u16At _ _).toNat_lt
        · exact (u16BEAt _ _).toNat_lt
      simp only [parseSubmessagesFuel] at h
      split_ifs at h with hlong hlittle
      · cases h
      · rcases mem_cons.1 h with rfl | h
        · exact Nat.lt_of_le_of_lt (length_take_le _ _) hn
        · exact ih h
      · exact ih h

@[simp] theorem parseSubmessages_nil : parseSubmessages [] = ([], none) := rfl

def snAt (b : Bytes) (i : Nat) : SequenceNumber := ⟨(u32At b i).toInt32, u32At b (i + 4)⟩

def putSN (sn : SequenceNumber) : Bytes := u32 sn.high.toUInt32 ++ u32 sn.low

@[simp] theorem length_putSN (sn : SequenceNumber) : (putSN sn).length = 8 := by simp [putSN]

theorem snAt_skip {a : Bytes} {i : Nat} (h : a.length ≤ i) :
    snAt (a ++ b) i = snAt b (i - a.length) := by
  unfold snAt
  rw [u32At_skip h, u32At_skip (by omega), show i + 4 - a.length = i - a.length + 4 by omega]

@[simp] theorem snAt_here (sn : SequenceNumber) (b : Bytes) : snAt (putSN sn ++ b) 0 = sn := by
  simp [snAt, putSN, u32At_skip]

/-! ## DATA -/

/-- A DATA submessage. `payload` is absent without the data flag, or if nothing follows the fixed
fields. -/
structure DataSubmessage where
  readerEntityId : EntityId
  writerEntityId : EntityId
  seqNum : SequenceNumber
  payload : Option Bytes

def dataBody (writerEID readerEID : EntityId) (seqNum : SequenceNumber) (payload : Bytes) : Bytes :=
  u16 0 ++ (u16 16 ++ (readerEID.toBytes ++ (writerEID.toBytes ++ (putSN seqNum ++ payload))))

def marshalDataSubmessage (writerEID readerEID : EntityId) (seqNum : SequenceNumber)
    (serialisedPayload : Bytes) : Bytes :=
  frame submsgDATA (flagEndianness ||| flagData)
    (dataBody writerEID readerEID seqNum serialisedPayload)

def parseDataSubmessage (flags : UInt8) (body : Bytes) : Option DataSubmessage :=
  if body.length < 20 then none
  else some
    { readerEntityId := FixedBytes.copy 4 (slice body 4 8)
      writerEntityId := FixedBytes.copy 4 (slice body 8 12)
      seqNum := snAt body 12
      payload := if flags &&& flagData ≠ 0 ∧ body.length > 20 then some (body.drop 20) else none }

theorem length_dataBody (w r : EntityId) (sn : SequenceNumber) (p : Bytes) :
    (dataBody w r sn p).length = 20 + p.length := by
  simp [dataBody]
  omega

theorem parseDataSubmessage_dataBody (w r : EntityId) (sn : SequenceNumber) (hp : p ≠ []) :
    parseDataSubmessage (flagEndianness ||| flagData) (dataBody w r sn p) =
      some ⟨r, w, sn, some p⟩ := by
  have hlen := length_dataBody w r sn p
  have hpos : 0 < p.length := length_pos_iff.2 hp
  have hreader : slice (dataBody w r sn p) 4 8 = r.toBytes := by
    simp [dataBody, slice_skip, slice_here]
  have hwriter : slice (dataBody w r sn p) 8 12 = w.toBytes := by
    simp [dataBody, slice_skip, slice_here]
  have hsn : snAt (dataBody w r sn p) 12 = sn := by simp [dataBody, snAt_skip]
  have hpay : (dataBody w r sn p).drop 20 = p := by
    simp [dataBody, drop_append, drop_of_length_le]
  have hflags : (flagEndianness ||| flagData) &&& flagData ≠ 0 := by decide
  rw [parseDataSubmessage, if_neg (by omega), if_pos ⟨hflags, by omega⟩, hreader, hwriter, hsn,
    hpay]
  simp only [copy_toBytes]

theorem length_payload_of_parseDataSubmessage {flags : UInt8} {body : Bytes} {ds : DataSubmessage}
    (h : parseDataSubmessage flags body = some ds) (hp : ds.payload = some p) :
    p.length + 20 = body.length := by
  unfold parseDataSubmessage at h
  split_ifs at h with hlen hflags
  all_goals
    obtain rfl := Option.some.inj h
    simp only [Option.some.injEq, reduceCtorEq] at hp
  rw [← hp, length_drop]
  omega

structure Heartbeat where
  readerEntityId : EntityId
  writerEntityId : EntityId
  firstSN : SequenceNumber
  lastSN : SequenceNumber
  count : Int32
  liveliness : Bool
  deriving DecidableEq

def heartbeatBody (hb : Heartbeat) : Bytes :=
  hb.readerEntityId.toBytes ++ (hb.writerEntityId.toBytes ++ (putSN hb.firstSN ++
    (putSN hb.lastSN ++ u32 hb.count.toUInt32)))

def heartbeatFlags (hb : Heartbeat) : UInt8 :=
  if hb.liveliness then flagEndianness ||| hbFlagLiveliness else flagEndianness

def marshalHeartbeat (hb : Heartbeat) : Bytes :=
  frame submsgHEARTBEAT (heartbeatFlags hb) (heartbeatBody hb)

/-- The parser leaves the liveliness flag unset: it is in the flags, not in the body. -/
def parseHeartbeat (body : Bytes) : Option Heartbeat :=
  if body.length < 28 then none
  else some
    { readerEntityId := FixedBytes.copy 4 (slice body 0 4)
      writerEntityId := FixedBytes.copy 4 (slice body 4 8)
      firstSN := snAt body 8
      lastSN := snAt body 16
      count := (u32At body 24).toInt32
      liveliness := false }

@[simp] theorem length_heartbeatBody (hb : Heartbeat) : (heartbeatBody hb).length = 28 := by
  simp [heartbeatBody]

theorem heartbeatFlags_little (hb : Heartbeat) : heartbeatFlags hb &&& flagEndianness ≠ 0 := by
  unfold heartbeatFlags
  split_ifs <;> decide

theorem parseHeartbeat_heartbeatBody (hb : Heartbeat) :
    parseHeartbeat (heartbeatBody hb) = some { hb with liveliness := false } := by
  have hreader : slice (heartbeatBody hb) 0 4 = hb.readerEntityId.toBytes := by
    simp [heartbeatBody, slice_here]
  have hwriter : slice (heartbeatBody hb) 4 8 = hb.writerEntityId.toBytes := by
    simp [heartbeatBody, slice_skip, slice_here]
  have hfirst : snAt (heartbeatBody hb) 8 = hb.firstSN := by simp [heartbeatBody, snAt_skip]
  have hlast : snAt (heartbeatBody hb) 16 = hb.lastSN := by simp [heartbeatBody, snAt_skip]
  have hcount : u32At (heartbeatBody hb) 24 = hb.count.toUInt32 := by
    simp [heartbeatBody, u32At_skip]
  rw [parseHeartbeat, if_neg (by simp), hreader, hwriter, hfirst, hlast, hcount]
  simp only [copy_toBytes, Int32.toInt32_toUInt32]

/-! ## ACKNACK -/

/-- An ACKNACK: everything below `base` has arrived, and bit `n` asks for `base + n`. -/
structure AckNack where
  readerEntityId : EntityId
  writerEntityId : EntityId
  base : SequenceNumber
  bitmap : UInt32
  count : Int32
  deriving DecidableEq

/-- The bitmap words of an ACKNACK: none if it is positive, else one, most significant bit first. -/
def bitmapWords (bitmap : UInt32) : Bytes :=
  if (len32 bitmap + 31) / 32 > 0 then u32 (reverse32 bitmap) else []

def ackNackBody (an : AckNack) : Bytes :=
  an.readerEntityId.toBytes ++ (an.writerEntityId.toBytes ++ (putSN an.base ++
    (u32 (len32 an.bitmap) ++ (bitmapWords an.bitmap ++ u32 an.count.toUInt32))))

def marshalAckNack (an : AckNack) : Bytes :=
  frame submsgACKNACK flagEndianness (ackNackBody an)

def parseAckNack (body : Bytes) : Option AckNack :=
  if body.length < 20 then none
  else
    let numBits := u32At body 16
    if numBits > 256 then none
    else
      let numWords := (numBits + 31) / 32
      if body.length < (20 + numWords * 4 + 4).toNat then none
      else some
        { readerEntityId := FixedBytes.copy 4 (slice body 0 4)
          writerEntityId := FixedBytes.copy 4 (slice body 4 8)
          base := snAt body 8
          bitmap := if numWords > 0 then reverse32 (u32At body 20) else 0
          count := (u32At body (20 + numWords * 4).toNat).toInt32 }

theorem numWords_eq (bitmap : UInt32) : (len32 bitmap + 31) / 32 = if bitmap = 0 then 0 else 1 := by
  apply UInt32.toNat_inj.1
  have hle := len32_le bitmap
  have hlen := len32_toNat bitmap
  rw [UInt32.toNat_div, UInt32.toNat_add]
  show ((len32 bitmap).toNat + 31) % 2 ^ 32 / 32 = _
  split_ifs at hlen ⊢ with h
  · rw [hlen]
    rfl
  · show _ = 1
    omega

theorem length_ackNackBody (an : AckNack) :
    (ackNackBody an).length = if an.bitmap = 0 then 24 else 28 := by
  unfold ackNackBody bitmapWords
  rw [numWords_eq]
  by_cases h : an.bitmap = 0 <;> simp [h]

theorem parseAckNack_ackNackBody (an : AckNack) : parseAckNack (ackNackBody an) = some an := by
  have hlen := length_ackNackBody an
  have hreader : slice (ackNackBody an) 0 4 = an.readerEntityId.toBytes := by
    simp [ackNackBody, slice_here]
  have hwriter : slice (ackNackBody an) 4 8 = an.writerEntityId.toBytes := by
    simp [ackNackBody, slice_skip, slice_here]
  have hbase : snAt (ackNackBody an) 8 = an.base := by simp [ackNackBody, snAt_skip]
  have hbits : u32At (ackNackBody an) 16 = len32 an.bitmap := by simp [ackNackBody, u32At_skip]
  have hle : ¬ len32 an.bitmap > 256 := by
    rw [gt_iff_lt, UInt32.lt_iff_toNat_lt]
    have := len32_le an.bitmap
    show ¬ 256 < _
    omega
  have hcond : ¬ (ackNackBody an).length < 20 := by
    rw [hlen]
    split_ifs <;> decide
  rw [parseAckNack, if_neg hcond]
  simp only [hbits, numWords_eq]
  rw [if_neg hle, hreader, hwriter, hbase]
  by_cases h : an.bitmap = 0
  · have hcount : u32At (ackNackBody an) 20 = an.count.toUInt32 := by
      simp [ackNackBody, bitmapWords, h, numWords_eq, u32At_skip]
    rw [if_pos h] at hlen
    simp only [if_pos h]
    rw [if_neg (by rw [hlen]; decide), if_neg (by decide),
      show ((20 + 0 * 4 : UInt32)).toNat = 20 from rfl, hcount]
    simp only [copy_toBytes, Int32.toInt32_toUInt32, ← h]
  · have hword : u32At (ackNackBody an) 20 = reverse32 an.bitmap := by
      simp [ackNackBody, bitmapWords, h, numWords_eq, u32At_skip]
    have hcount : u32At (ackNackBody an) 24 = an.count.toUInt32 := by
      simp [ackNackBody, bitmapWords, h, numWords_eq, u32At_skip]
    rw [if_neg h] at hlen
    simp only [if_neg h]
    rw [if_neg (by rw [hlen]; decide), if_pos (by decide),
      show ((20 + 1 * 4 : UInt32)).toNat = 24 from rfl, hcount, hword]
    simp only [copy_toBytes, Int32.toInt32_toUInt32, reverse32_reverse32]

structure Gap where
  readerEntityId : EntityId
  writerEntityId : EntityId
  gapStart : SequenceNumber
  gapEnd : SequenceNumber
  deriving DecidableEq

/-- The body of a GAP. The list of further numbers is empty and based one past the end. -/
def gapBody (g : Gap) : Bytes :=
  g.readerEntityId.toBytes ++ (g.writerEntityId.toBytes ++ (putSN g.gapStart ++
    (putSN (u64ToSN (snToU64 g.gapEnd + 1)) ++ u32 0)))

def marshalGAP (g : Gap) : Bytes := frame submsgGAP flagEndianness (gapBody g)

@[simp] theorem length_gapBody (g : Gap) : (gapBody g).length = 28 := by simp [gapBody]

def ntpDelta : Int := 2208988800

def ntpEra : Int := 2 ^ 32

def infoTSBody (t : Int) : Bytes :=
  u32 (UInt32.ofNat ((unix t + ntpDelta) % ntpEra).toNat) ++
    u32 (UInt32.ofNat (nanosecond t * 2 ^ 32 / second).toNat)

def marshalInfoTS (t : Int) : Bytes := frame submsgINFO_TS flagEndianness (infoTSBody t)

/-- The instant whose NTP seconds are `secs` modulo the era, nearest to `ref`. -/
def ntpEraDisambiguate (secs : UInt32) (ns : Int) (ref : Int) : Int :=
  let diff := unix ref + ntpDelta - secs.toNat
  let eraCount :=
    if diff ≥ 0 then (diff + ntpEra / 2) / ntpEra else -((-diff + ntpEra / 2) / ntpEra)
  ofUnix (secs.toNat + eraCount * ntpEra - ntpDelta) ns

def parseInfoTS (now : Int) (body : Bytes) : Option Int :=
  if body.length < 8 then none
  else some (ntpEraDisambiguate (u32At body 0) ((u32At body 4).toNat * 1000000000 / 2 ^ 32 : Nat)
    now)

@[simp] theorem length_infoTSBody (t : Int) : (infoTSBody t).length = 8 := by simp [infoTSBody]

/-- The encapsulation identifiers accepted on a payload: CDR and parameter list, little endian. -/
def cdrLE : UInt16 := 0x0001
def plCDRLE : UInt16 := 0x0003

def cdrWrapPayload (payload : Bytes) : Bytes := be 2 cdrLE.toNat ++ [0, 0] ++ payload

def cdrUnwrapPayload (b : Bytes) : Option Bytes :=
  if b.length < 4 then none
  else if u16BEAt b 0 ≠ cdrLE ∧ u16BEAt b 0 ≠ plCDRLE then none
  else some (b.drop 4)

theorem length_cdrWrapPayload (p : Bytes) : (cdrWrapPayload p).length = p.length + 4 := by
  simp [cdrWrapPayload]
  omega

theorem cdrUnwrapPayload_cdrWrapPayload (p : Bytes) :
    cdrUnwrapPayload (cdrWrapPayload p) = some p := by
  have hlen := length_cdrWrapPayload p
  have hscheme : u16BEAt (cdrWrapPayload p) 0 = cdrLE := rfl
  rw [cdrUnwrapPayload, if_neg (by omega), if_neg (by simp [hscheme])]
  rfl

theorem length_of_cdrUnwrapPayload (h : cdrUnwrapPayload b = some p) : p.length + 4 = b.length := by
  unfold cdrUnwrapPayload at h
  split_ifs at h with hlen
  obtain rfl := Option.some.inj h
  rw [length_drop]
  omega

end GoDDS
