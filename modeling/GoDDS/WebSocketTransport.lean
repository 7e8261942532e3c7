import GoDDS.Lib.Base64
import GoDDS.Lib.Go
import GoDDS.Lib.Stream
import GoDDS.WebSocket

/-!
# RTPS messages over WebSocket

A message is one frame: its bytes, or a JSON object that holds them in base64. `send` limits the
message, `readWSFrame` and `readMessage` limit the frame, and base64 makes it longer by a third.
-/

namespace GoDDS.WebSocket

open ByteCodec Go Base64
open List hiding not_lt

def maxWSFrameSize : Nat := 2 ^ 20

inductive Framing where
  | binary
  | json

/-- Exclusive or with the key, over and over. Applied to payloads in both directions. -/
def masked (key : FixedBytes 4) (payload : Bytes) : Bytes :=
  payload.mapIdx fun i b => b ^^^ key.toBytes.getD (i % 4) 0

def lengthField (n : Nat) (maskBit : UInt8) : Bytes :=
  if n < 126 then [.ofNat n ||| maskBit]
  else if n ≤ 0xFFFF then (126 ||| maskBit) :: be 2 n
  else (127 ||| maskBit) :: be 8 n

def writeWSFrame (op : UInt8) (payload : Bytes) : Option (FixedBytes 4) → Bytes
  | none => (0x80 ||| (op &&& 0x0F)) :: lengthField payload.length 0 ++ payload
  | some key => (0x80 ||| (op &&& 0x0F)) :: lengthField payload.length 0x80 ++ key.toBytes ++
      masked key payload

def readLength (len7 : Nat) (r : Bytes) : Option (Nat × Bytes) :=
  if len7 = 126 then readBE 2 r else if len7 = 127 then readBE 8 r else some (len7, r)

/-- `readWSFrame` of the transport and `readFrame` of the bridge, but for their limit. -/
def readFrameUpTo (limit : Nat) : Bytes → Option (Frame × Bytes)
  | h₀ :: h₁ :: r => do
    let (n, r) ← readLength (h₁ &&& 0x7F).toNat r
    if limit < n then none
    else if h₁ &&& 0x80 = 0 then
      let (payload, r) ← readFull n r
      return (⟨h₀ &&& 0x80 ≠ 0, h₀ &&& 0x0F, payload⟩, r)
    else
      let (key, r) ← readFull 4 r
      let (payload, r) ← readFull n r
      return (⟨h₀ &&& 0x80 ≠ 0, h₀ &&& 0x0F, masked (FixedBytes.copy 4 key) payload⟩, r)
  | _ => none

def readWSFrame : Bytes → Option (Frame × Bytes) := readFrameUpTo maxWSFrameSize

def Bridge.writeFrame (op : UInt8) (payload : Bytes) : Bytes :=
  (0x80 ||| (op &&& 0x0F)) :: lengthField payload.length 0 ++ payload

def Bridge.maxFrameBytes : Nat := 2 ^ 20

def Bridge.readFrame : Bytes → Option (Frame × Bytes) := readFrameUpTo maxFrameBytes

inductive Writer where
  | rtps (key : Option (FixedBytes 4))
  | bridge

def Writer.write (op : UInt8) (payload : Bytes) : Writer → Bytes
  | rtps key => writeWSFrame op payload key
  | bridge => Bridge.writeFrame op payload

/-- `json.Marshal` of a `wsJSONMessage` whose text needs no escapes. -/
def envelope (text : Bytes) : Bytes := str "\x7b\"data\":\"" ++ text ++ str "\"\x7d"

def writeMessage (key : Option (FixedBytes 4)) (data : Bytes) : Framing → Bytes
  | .binary => writeWSFrame opBinary data key
  | .json => writeWSFrame opText (envelope (Base64.encode data)) key

variable (unmarshal : Bytes → Option Bytes)

/-- `unmarshal` is `json.Unmarshal` into a `wsJSONMessage`. -/
def decodeWSPayload (op : UInt8) (payload : Bytes) : Option Bytes :=
  if op = opBinary then some payload
  else if op = opText then (unmarshal payload).bind Base64.decode
  else none

def receive (r : Bytes) : Option Bytes := do
  let (f, _) ← readWSFrame r
  let (op, payload, _) ← Transport.readMessage (fun _ => true) [f]
  decodeWSPayload unmarshal op payload

variable {unmarshal} {op : UInt8} {payload r : Bytes} {key : Option (FixedBytes 4)}

theorem masked_masked (key : FixedBytes 4) (payload : Bytes) :
    masked key (masked key payload) = payload :=
  ext_getElem (by simp [masked]) fun i _ _ => by
    simp only [masked, getElem_mapIdx, UInt8.xor_assoc, UInt8.xor_self, UInt8.xor_zero]

theorem readLength_lengthField {n : Nat} (hn : n < 2 ^ 64) {bit : UInt8}
    (hbit : bit = 0 ∨ bit = 0x80) : ∃ h₁ ext, lengthField n bit = h₁ :: ext ∧ h₁ &&& 0x80 = bit ∧
      ∀ r, readLength (h₁ &&& 0x7F).toNat (ext ++ r) = some (n, r) := by
  have hsmall : ∀ k < 126, ∀ bit : UInt8, bit = 0 ∨ bit = 0x80 →
      (UInt8.ofNat k ||| bit) &&& 0x80 = bit ∧ ((UInt8.ofNat k ||| bit) &&& 0x7F).toNat = k := by
    rintro k hk bit (rfl | rfl) <;> revert k <;> decide +kernel
  unfold lengthField
  split_ifs with h₁ h₂
  · obtain ⟨hmask, hlen⟩ := hsmall n h₁ bit hbit
    refine ⟨_, [], rfl, hmask, fun r => ?_⟩
    rw [hlen, readLength, if_neg (by omega), if_neg (by omega), nil_append]
  · refine ⟨_, _, rfl, by rcases hbit with rfl | rfl <;> decide, fun r => ?_⟩
    rw [show ((126 ||| bit) &&& 0x7F).toNat = 126 by rcases hbit with rfl | rfl <;> decide]
    exact readBE_append (show n < 256 ^ 2 by omega)
  · refine ⟨_, _, rfl, by rcases hbit with rfl | rfl <;> decide, fun r => ?_⟩
    rw [show ((127 ||| bit) &&& 0x7F).toNat = 127 by rcases hbit with rfl | rfl <;> decide]
    exact readBE_append (show n < 256 ^ 8 by omega)

theorem first_byte (hop : op < 16) :
    (0x80 ||| (op &&& 0x0F)) &&& 0x80 ≠ 0 ∧ (0x80 ||| (op &&& 0x0F)) &&& 0x0F = op := by
  have hall : ∀ k < 16, (0x80 ||| (UInt8.ofNat k &&& 0x0F)) &&& 0x80 ≠ 0 ∧
      (0x80 ||| (UInt8.ofNat k &&& 0x0F)) &&& 0x0F = UInt8.ofNat k := by decide +kernel
  simpa only [UInt8.ofNat_toNat] using hall op.toNat hop

theorem readWSFrame_writeWSFrame (hop : op < 16) (hn : payload.length < 2 ^ 64) (r : Bytes) :
    readWSFrame (writeWSFrame op payload key ++ r) =
      if maxWSFrameSize < payload.length then none else some (⟨true, op, payload⟩, r) := by
  have hfirst := first_byte hop
  cases key with
  | none =>
    obtain ⟨h₁, ext, hfield, hmask, hread⟩ := readLength_lengthField hn (.inl rfl)
    have hfull : readFull payload.length (payload ++ r) = some (payload, r) := readFull_append rfl
    simp [-UInt8.toNat_and, writeWSFrame, hfield, readWSFrame, readFrameUpTo, hread, hmask, hfull,
      hfirst]
  | some key =>
    obtain ⟨h₁, ext, hfield, hmask, hread⟩ := readLength_lengthField hn (.inr rfl)
    have hfull : readFull payload.length (masked key payload ++ r) = some (masked key payload, r) :=
      readFull_append (by simp [masked])
    simp [-UInt8.toNat_and, writeWSFrame, hfield, readWSFrame, readFrameUpTo, hread, hmask, hfull,
      hfirst, masked_masked, readFull_append key.length_toBytes]

theorem receive_writeWSFrame (hop : op = opBinary ∨ op = opText) (hn : payload.length < 2 ^ 64) :
    receive unmarshal (writeWSFrame op payload key) =
      if maxWSFrameSize < payload.length then none else decodeWSPayload unmarshal op payload := by
  have hread : readWSFrame (writeWSFrame op payload key ++ []) = _ :=
    readWSFrame_writeWSFrame (by rcases hop with rfl | rfl <;> decide) hn []
  rw [append_nil] at hread
  rw [receive, hread]
  split_ifs with hlong
  · rfl
  · have hshort : ¬ 1048576 < payload.length := hlong
    rcases hop with rfl | rfl <;>
      simp [Transport.readMessage, readMessage, readLoop, nextOp, opBinary, opText, opPing, opPong,
        opClose, opContinuation, hshort]

/-- The transport and the bridge read from a stream what either of them has written, masked or
not. -/
theorem frames_interoperate (fs : List (Writer × UInt8 × Bytes))
    (hfs : ∀ f ∈ fs, f.2.1 < 16 ∧ f.2.2.length ≤ 2 ^ 20) (rest : Bytes) :
    let stream := fs.flatMap (fun f => f.1.write f.2.1 f.2.2) ++ rest
    let frames := fs.map fun f => (⟨true, f.2.1, f.2.2⟩ : Frame)
    readMany readWSFrame fs.length stream = some (frames, rest) ∧
      readMany Bridge.readFrame fs.length stream = some (frames, rest) := by
  have hread : ∀ f ∈ fs, ∀ rest, readWSFrame (f.1.write f.2.1 f.2.2 ++ rest) =
      some (⟨true, f.2.1, f.2.2⟩, rest) := by
    rintro ⟨w, op, payload⟩ hf rest
    obtain ⟨hop, hlen⟩ := hfs _ hf
    obtain ⟨key, hwrite⟩ : ∃ key, w.write op payload = writeWSFrame op payload key := by
      cases w with
      | rtps key => exact ⟨key, rfl⟩
      | bridge => exact ⟨none, rfl⟩
    dsimp only at hop hlen ⊢
    rw [hwrite, readWSFrame_writeWSFrame hop (by omega), maxWSFrameSize, if_neg (not_lt.2 hlen)]
  exact ⟨readMany_flatMap hread rest, readMany_flatMap hread rest⟩

theorem masked_and_plain_interoperate :
    readMany Bridge.readFrame 2 (writeWSFrame 1 [7] (some (FixedBytes.copy 4 [1, 2, 3, 4])) ++
      Bridge.writeFrame 9 []) = some ([⟨true, 1, [7]⟩, ⟨true, 9, []⟩], []) := by
  have h := (frames_interoperate [(.rtps (some (FixedBytes.copy 4 [1, 2, 3, 4])), 1, [7]),
    (.bridge, 9, [])] (by simp) []).2
  simpa [Writer.write] using h

theorem length_envelope (data : Bytes) :
    (envelope (encode data)).length = 11 + 4 * ((data.length + 2) / 3) := by
  rw [envelope, length_append, length_append, length_encode]
  have h₁ : (str "\x7b\"data\":\"").length = 9 := by decide
  have h₂ : (str "\"\x7d").length = 2 := by decide
  omega

/-- What `send` does not reject is received as it was sent exactly if it is sent as bytes, or the
JSON text is within the limit. -/
theorem received_iff
    (hjson : ∀ data, unmarshal (envelope (Base64.encode data)) = some (Base64.encode data))
    (key : Option (FixedBytes 4)) (framing : Framing) {data : Bytes}
    (hsize : data.length ≤ maxWSFrameSize) :
    receive unmarshal (writeMessage key data framing) = some data ↔
      (framing = .json → 11 + 4 * ((data.length + 2) / 3) ≤ maxWSFrameSize) := by
  cases framing with
  | binary =>
    rw [writeMessage, receive_writeWSFrame (.inl rfl) (by unfold maxWSFrameSize at hsize; omega),
      if_neg (not_lt.2 hsize)]
    simp [decodeWSPayload]
  | json =>
    have hlen := length_envelope data
    rw [writeMessage, receive_writeWSFrame (.inr rfl) (by unfold maxWSFrameSize at hsize; omega), hlen]
    by_cases hlong : maxWSFrameSize < 11 + 4 * ((data.length + 2) / 3)
    · simp [hlong]
    · simp only [hlong, if_false, decodeWSPayload, hjson, Option.bind_some, decode_encode]
      simpa [opText, opBinary] using not_lt.1 hlong

def unwrap (payload : Bytes) : Option Bytes := some ((payload.drop 9).take (payload.length - 11))

theorem unwrap_envelope (data : Bytes) : unwrap (envelope (encode data)) = some (encode data) := by
  rw [unwrap, length_envelope, Nat.add_sub_cancel_left, ← length_encode, envelope,
    append_assoc, drop_append_of_le_length (by decide)]
  exact congrArg some take_left

theorem received_in_json : receive unwrap (writeMessage none [7] .json) = some [7] :=
  (received_iff unwrap_envelope none .json (by decide)).2 fun _ => by decide

/-- **A message that is sent and refused.** It has the largest size, and is sent as JSON. -/
theorem largest_message_refused :
    (List.replicate maxWSFrameSize (0 : UInt8)).length ≤ maxWSFrameSize ∧
      receive unwrap (writeMessage none (List.replicate maxWSFrameSize 0) .json) = none := by
  have hlen := length_envelope (List.replicate maxWSFrameSize 0)
  rw [length_replicate] at hlen
  refine ⟨length_replicate.le, ?_⟩
  rw [writeMessage, receive_writeWSFrame (.inr rfl) (by rw [hlen, maxWSFrameSize]; norm_num), hlen,
    if_pos (by rw [maxWSFrameSize]; norm_num)]

end GoDDS.WebSocket
