import GoDDS.Rtps.Arrival
import GoDDS.Rtps.Padding
import GoDDS.Rtps.Wire

/-!
# Layouts of DATA

The receiver takes whatever follows the sequence number for serialized data.
-/

namespace GoDDS

open ByteCodec Go Security Participant List FixedBytes Option

def flagInlineQos : UInt8 := 0x02

def flagKey : UInt8 := 0x08

inductive DataContent where
  | nothing
  | data (bytes : Bytes)
  | key (bytes : Bytes)

namespace DataContent

def flags : DataContent → UInt8
  | .nothing => 0
  | .data _ => flagData
  | .key _ => flagKey

def bytes : DataContent → Bytes
  | .nothing => []
  | .data bytes => bytes
  | .key bytes => bytes

end DataContent

def qosBytes : Option (List Entry) → Bytes
  | none => []
  | some entries => encodeEntries entries ++ (u16 pidSentinel ++ u16 0)

/-- A well-formed little-endian DATA submessage. `extension` are header bytes the inline QoS offset
steps over. -/
structure DataLayout where
  flags : UInt8
  extraFlags : UInt16
  reader : EntityId
  writer : EntityId
  sn : SequenceNumber
  extension : Bytes
  inlineQos : Option (List Entry)
  content : DataContent
  little : flags &&& flagEndianness ≠ 0
  inlineQos_iff : inlineQos.isSome = true ↔ flags &&& flagInlineQos ≠ 0
  content_flags : flags &&& (flagData ||| flagKey) = content.flags
  valid : ∀ entries ∈ inlineQos, ∀ e ∈ entries, e.Valid
  fits : 20 + extension.length + (qosBytes inlineQos).length + content.bytes.length < 65536

namespace DataLayout

def behind (l : DataLayout) : Bytes := l.extension ++ (qosBytes l.inlineQos ++ l.content.bytes)

def body (l : DataLayout) : Bytes :=
  u16 l.extraFlags ++ (u16 (UInt16.ofNat (16 + l.extension.length)) ++ (l.reader.toBytes ++
    (l.writer.toBytes ++ (putSN l.sn ++ l.behind))))

def submessage (l : DataLayout) : Submessage := ⟨submsgDATA, l.flags, l.body⟩

/-- Whatever the receiver, a sample dispatched for the submessage is its serialized data, unwrapped
and opened. -/
def Faithful (l : DataLayout) : Prop :=
  ∀ (sender : GuidPrefix) (src : Option UDPAddr) (now : Int) (c : RecvState) (reader : EntityId)
    (source : GUID) (origin : Origin) (sample : Sample) (queued : Bool),
    .dispatch reader source origin sample queued ∈
        (handleSubmessage sender src now c l.submessage).2 →
      ∃ bytes raw, l.content = .data bytes ∧ cdrUnwrapPayload bytes = some raw ∧
        openPayload c.participant.config raw = some sample.payload

/-! ## What the receiver makes of it -/

theorem length_body (l : DataLayout) : l.body.length = 20 + l.behind.length := by
  simp [body]
  omega

theorem parseDataSubmessage_body (l : DataLayout) :
    parseDataSubmessage (flagEndianness ||| flagData) l.body =
      some ⟨l.reader, l.writer, l.sn, if l.behind = [] then none else some l.behind⟩ := by
  have hlen := l.length_body
  have hreader : slice l.body 4 8 = l.reader.toBytes := by
    simp [body, slice_skip, slice_here]
  have hwriter : slice l.body 8 12 = l.writer.toBytes := by
    simp [body, slice_skip, slice_here]
  have hsn : snAt l.body 12 = l.sn := by simp [body, snAt_skip]
  have hpay : l.body.drop 20 = l.behind := by
    simp [body, drop_append, drop_of_length_le]
  have hflags : (flagEndianness ||| flagData) &&& flagData ≠ 0 := by decide
  rw [parseDataSubmessage, if_neg (by omega), hreader, hwriter, hsn, hpay]
  by_cases hnil : l.behind = []
  · simp [hnil, hlen]
  · have hpos : 0 < l.behind.length := length_pos_iff.2 hnil
    rw [if_pos ⟨hflags, by omega⟩, if_neg hnil]
    simp only [copy_toBytes]

theorem openData_body (cfg : ParticipantConfig) (l : DataLayout) :
    openData cfg l.body = (cdrUnwrapPayload l.behind).bind fun raw =>
      (openPayload cfg raw).map fun payload => (l.writer, snToU64 l.sn, payload) := by
  rw [openData, parseDataSubmessage_body]
  by_cases hnil : l.behind = []
  · rw [hnil]
    rfl
  · simp only [if_neg hnil]
    cases cdrUnwrapPayload l.behind with
    | none => rfl
    | some raw => rfl

theorem handleSubmessage_data (l : DataLayout) (sender : GuidPrefix) (src : Option UDPAddr)
    (now : Int) (c : RecvState) : (handleSubmessage sender src now c l.submessage).2 =
      ((openData c.participant.config l.body).map fun (writer, sn, payload) =>
        (c.participant.act ⟨.data ⟨sender, writer⟩ sn payload c.pendingTS, src, now⟩).2).getD [] := by
  have hid : l.submessage.id ≠ submsgINFO_TS := show submsgDATA ≠ submsgINFO_TS by decide
  rw [handleSubmessage_eq_act hid, actionOf_data rfl, show l.submessage.body = l.body from rfl]
  cases openData c.participant.config l.body with
  | none => rfl
  | some d => rfl

theorem unwrap_of_dispatch {l : DataLayout} {sender : GuidPrefix} {src : Option UDPAddr} {now : Int}
    {c : RecvState} {reader : EntityId} {source : GUID} {origin : Origin} {sample : Sample}
    {queued : Bool} (h : .dispatch reader source origin sample queued ∈
      (handleSubmessage sender src now c l.submessage).2) :
    ∃ raw, cdrUnwrapPayload l.behind = some raw ∧
      openPayload c.participant.config raw = some sample.payload := by
  rw [handleSubmessage_data, openData_body] at h
  cases hunwrap : cdrUnwrapPayload l.behind with
  | none => simp [hunwrap] at h
  | some raw =>
    cases hopen : openPayload c.participant.config raw with
    | none => simp [hunwrap, hopen] at h
    | some payload =>
      simp only [hunwrap, hopen, bind_some, map_some, getD_some] at h
      have hfilter := mem_filter.2 ⟨h, show Effect.isDispatchTo reader _ = true from
        decide_eq_true rfl⟩
      rcases c.participant.act_dispatches _ reader with
        hnone | ⟨r, r', g', sn, payload', ts, queued', ha, -, -, -, -, -, hone⟩
      · rw [hnone] at hfilter
        cases hfilter
      · rw [hone] at hfilter
        obtain ⟨-, -, -, rfl, -⟩ := Effect.dispatch.inj (mem_singleton.1 hfilter)
        obtain ⟨-, -, rfl, -⟩ := Action.data.inj ha
        exact ⟨raw, rfl, hopen⟩

def attentiveReader (g : GUID) : Reader :=
  { Reader.new (ReaderConfig.ofDefaults (str "t") (entityIdForReader 1) false) with sources := {g} }

def attentive (g : GUID) : Participant :=
  { Participant.new (ParticipantConfig.ofDefaults (FixedBytes.copy 12 [2])) none with
    readers := Registry.empty.insert (attentiveReader g) }

theorem arrives_attentive {g : GUID} (hremote : g.guidPrefix ≠ copy 12 [2]) (sn : UInt64)
    (payload : Bytes) (ts now : Int) :
    Arrives ((attentive g).act ⟨.data g sn payload ts, none, now⟩).2 (entityIdForReader 1) g := by
  have hwilling : (attentiveReader g).Willing (remoteDispatch g sn payload ts now) :=
    ⟨rfl, fun hsep => absurd hsep (lt_irrefl _), rfl, show 0 < 64 by decide⟩
  have hmatch : (attentive g).Matched (attentiveReader g) (remoteDispatch g sn payload ts now) :=
    ⟨rfl, Reader.acceptsSource_iff.2 (.inr (Finset.mem_singleton_self g)),
      fun hlocal => absurd hlocal hremote⟩
  exact (arrives_act_iff rfl rfl rfl rfl hwilling hmatch).2 rfl

theorem dispatch_of_unwrap {l : DataLayout} {raw : Bytes} (h : cdrUnwrapPayload l.behind = some raw) :
    let sender : GuidPrefix := copy 12 [1]
    ∃ origin sample, .dispatch (entityIdForReader 1) ⟨sender, l.writer⟩ origin sample true ∈
      (handleSubmessage sender none 0 ⟨attentive ⟨sender, l.writer⟩, 0⟩ l.submessage).2 := by
  intro sender
  have hopen : openPayload (attentive ⟨sender, l.writer⟩).config raw = some raw := rfl
  rw [handleSubmessage_data, openData_body, h, bind_some, hopen]
  have hremote : sender ≠ copy 12 [2] := by decide
  exact arrives_attentive (g := ⟨sender, l.writer⟩) hremote (snToU64 l.sn) raw 0 0

/-! ## Faithful layouts -/

theorem length_of_unwrap {b raw : Bytes} (h : cdrUnwrapPayload b = some raw) :
    b.length = raw.length + 4 := by
  unfold cdrUnwrapPayload at h
  split_ifs at h
  obtain rfl := some.inj h
  rw [length_drop]
  omega

theorem qosBytes_eq_nil {q : Option (List Entry)} (h : qosBytes q = []) : q = none := by
  cases q with
  | none => rfl
  | some entries => simp [qosBytes, u16, le] at h

theorem flagData_iff (l : DataLayout) :
    l.flags &&& flagData ≠ 0 ↔ ∃ bytes, l.content = .data bytes := by
  have hand : l.flags &&& flagData = l.content.flags &&& flagData := by
    have hboth : (flagData ||| flagKey) &&& flagData = flagData := by decide
    rw [← l.content_flags, UInt8.and_assoc, hboth]
  rw [hand]
  cases l.content with
  | nothing => simp [DataContent.flags]
  | data bytes =>
    have hset : flagData ≠ 0 := by decide
    simp [DataContent.flags, hset]
  | key bytes =>
    have hclear : flagKey &&& flagData = 0 := by decide
    simp [DataContent.flags, hclear]

/-- The samples dispatched for a DATA submessage are its serialized data, exactly if the submessage
has data and neither an extended header nor inline QoS, or if what follows the sequence number does
not start with an encapsulation header. -/
theorem data_layout_iff (l : DataLayout) : l.Faithful ↔
      (l.extension = [] ∧ l.inlineQos = none ∧ l.flags &&& flagData ≠ 0) ∨
        cdrUnwrapPayload l.behind = none := by
  rw [flagData_iff]
  constructor
  · intro hfaithful
    cases hunwrap : cdrUnwrapPayload l.behind with
    | none => exact .inr rfl
    | some raw =>
      obtain ⟨origin, sample, hmem⟩ := dispatch_of_unwrap hunwrap
      obtain ⟨taken, htaken, hopen⟩ := unwrap_of_dispatch hmem
      obtain ⟨bytes, own, hcontent, hbytes, hown⟩ := hfaithful _ _ _ _ _ _ _ _ _ hmem
      -- The receiver has no plugin, so the sample is what was taken and what the data contains.
      have hsame : taken = own :=
        (some.inj (show some taken = some sample.payload from hopen)).trans
          (some.inj (show some own = some sample.payload from hown)).symm
      have hlen := length_of_unwrap htaken
      have hlen' := length_of_unwrap hbytes
      rw [behind, hcontent, List.length_append, List.length_append, hsame] at hlen
      simp only [DataContent.bytes] at hlen
      have hext : l.extension = [] := List.length_eq_zero_iff.1 (by omega)
      have hqos : qosBytes l.inlineQos = [] := List.length_eq_zero_iff.1 (by omega)
      exact .inl ⟨hext, qosBytes_eq_nil hqos, bytes, hcontent⟩
  · rintro (⟨hext, hqos, bytes, hcontent⟩ | hnone)
    · intro sender src now c reader source origin sample queued hmem
      obtain ⟨raw, hraw, hopen⟩ := unwrap_of_dispatch hmem
      rw [behind, hext, hqos, hcontent] at hraw
      exact ⟨bytes, raw, hcontent, hraw, hopen⟩
    · intro sender src now c reader source origin sample queued hmem
      obtain ⟨raw, hraw, -⟩ := unwrap_of_dispatch hmem
      rw [hnone] at hraw
      cases hraw

/-- A DATA submessage that carries the key of an instance only, as a dispose or an unregister
does. -/
def keyOnly : DataLayout :=
  { flags := flagEndianness ||| flagKey, extraFlags := 0, reader := entityIdUnknown
    writer := entityIdForWriter 1, sn := u64ToSN 1, extension := [], inlineQos := none
    content := .key [0, 1, 0, 0, 42]
    little := by decide
    inlineQos_iff := by decide
    content_flags := by decide
    valid := by simp
    fits := by decide }

/-- A key is delivered like data. -/
theorem key_dispatched :
    let sender : GuidPrefix := copy 12 [1]
    let g : GUID := ⟨sender, keyOnly.writer⟩
    let msg := wrapInRTPSMessage sender (frame submsgDATA keyOnly.flags keyOnly.body)
    keyOnly.flags &&& flagData = 0 ∧
      ((attentive g).handleDataPacket ⟨msg, none, 0⟩).2 =
        [.dispatch (entityIdForReader 1) g ⟨1, none⟩
          { topic := str "t", payload := [42], timestamp := zeroTime, sequenceNumber := 1
            writerGUID := g } true] := by decide +kernel

end DataLayout

end GoDDS
