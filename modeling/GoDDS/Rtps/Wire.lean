import GoDDS.Rtps.Receive

/-!
# What sent messages decode to

The messages one participant sends, read by another: each kind of message gives the receiver the
action it was built from. GAP and DATA_FRAG messages give nothing.
-/

namespace GoDDS

open ByteCodec Go Security List Option Outgoing

variable {payload : Bytes} {sender : GuidPrefix} {ts : Int} {cfg : ParticipantConfig} {sn : UInt64}

namespace Participant

/-- The timestamp a receiver whose clock shows `now` reads from an INFO_TS sent at `t`. -/
def wireTime (now t : Int) : Int := (parseInfoTS now (infoTSBody t)).getD zeroTime

theorem submessagesOf_wrapInRTPSMessage {own : GuidPrefix} (h : sender ≠ own) (b : Bytes) :
    submessagesOf own (wrapInRTPSMessage sender b) = some (sender, (parseSubmessages b).1) := by
  rw [submessagesOf, parseHeader_wrapInRTPSMessage, drop_wrapInRTPSMessage]
  exact if_neg h

section

variable (h : sender ≠ cfg.guidPrefix)
include h

theorem inputsOf_wrapInRTPSMessage (b : Bytes) (src : Option UDPAddr)
    (now : Int) : inputsOf cfg ⟨wrapInRTPSMessage sender b, src, now⟩ =
      inputsOfSubs cfg sender src now zeroTime (parseSubmessages b).1 := by
  rw [inputsOf, submessagesOf_wrapInRTPSMessage h]

theorem inputsOf_frame {id flags : UInt8} {body : Bytes}
    (hflags : flags &&& flagEndianness ≠ 0) (hlen : body.length < 65536) (hid : id ≠ submsgINFO_TS)
    (src : Option UDPAddr) (now : Int) :
    inputsOf cfg ⟨wrapInRTPSMessage sender (frame id flags body), src, now⟩ =
      ((actionOf cfg sender zeroTime ⟨id, flags, body⟩).map fun a => Input.mk a src now).toList := by
  have hparse := parseSubmessages_frame id flags body [] hflags hlen
  rw [append_nil, parseSubmessages_nil] at hparse
  rw [inputsOf_wrapInRTPSMessage h, hparse, inputsOfSubs, if_neg hid, inputsOfSubs, append_nil]

theorem inputsOf_infoTS (t : Int) (b : Bytes) (src : Option UDPAddr)
    (now : Int) : inputsOf cfg ⟨wrapInRTPSMessage sender (marshalInfoTS t ++ b), src, now⟩ =
      inputsOfSubs cfg sender src now (wireTime now t) (parseSubmessages b).1 := by
  have hparse := parseSubmessages_frame submsgINFO_TS flagEndianness (infoTSBody t) b (by decide)
    (by rw [length_infoTSBody]; decide)
  rw [inputsOf_wrapInRTPSMessage h, marshalInfoTS, hparse, inputsOfSubs, if_pos rfl]
  rfl

/-! ## The messages of the protocol -/

omit h in
theorem openData_dataBody (cfg : ParticipantConfig) (w r : EntityId) (sn : SequenceNumber)
    (wire : Bytes) : openData cfg (dataBody w r sn (cdrWrapPayload wire)) =
      (openPayload cfg wire).map fun payload => (w, snToU64 sn, payload) := by
  have hne : cdrWrapPayload wire ≠ [] := by
    intro hnil
    have hlen := length_cdrWrapPayload wire
    rw [hnil] at hlen
    simp at hlen
  rw [openData, parseDataSubmessage_dataBody w r sn hne]
  simp only [cdrUnwrapPayload_cdrWrapPayload]

theorem inputsOf_data (w : EntityId) (sn : SequenceNumber) (t : Int)
    {wire : Bytes} (hlen : wire.length + 24 < 65536) (src : Option UDPAddr) (now : Int) :
    inputsOf cfg ⟨dataMessage sender w sn t wire, src, now⟩ =
      ((openPayload cfg wire).map fun payload =>
        Input.mk (.data ⟨sender, w⟩ (snToU64 sn) payload (wireTime now t)) src now).toList := by
  have hbody : (dataBody w entityIdUnknown sn (cdrWrapPayload wire)).length < 65536 := by
    rw [length_dataBody, length_cdrWrapPayload]
    omega
  have hparse := parseSubmessages_frame submsgDATA (flagEndianness ||| flagData)
    (dataBody w entityIdUnknown sn (cdrWrapPayload wire)) [] (by decide) hbody
  rw [append_nil, parseSubmessages_nil] at hparse
  have hid : ¬ submsgDATA = submsgINFO_TS := by decide
  rw [dataMessage, inputsOf_infoTS h, marshalDataSubmessage, hparse, inputsOfSubs, if_neg hid,
    inputsOfSubs, append_nil, actionOf_data rfl, openData_dataBody, Option.map_map, Option.map_map]
  rfl

theorem inputsOf_heartbeat (hb : Heartbeat) (src : Option UDPAddr)
    (now : Int) : inputsOf cfg ⟨(heartbeat hb).bytes sender, src, now⟩ =
      [⟨.heartbeat ⟨sender, hb.writerEntityId⟩ hb, src, now⟩] := by
  have hlive : decide (heartbeatFlags hb &&& hbFlagLiveliness ≠ 0) = hb.liveliness := by
    unfold heartbeatFlags
    cases hb.liveliness <;> decide
  rw [bytes, marshalHeartbeat, inputsOf_frame h (heartbeatFlags_little hb)
    (by rw [length_heartbeatBody]; decide) (by decide), actionOf_heartbeat rfl,
    parseHeartbeat_heartbeatBody]
  simp only [hlive, map_some, toList_some]

theorem inputsOf_ackNack (an : AckNack) (src : Option UDPAddr)
    (now : Int) : inputsOf cfg ⟨(ackNack an).bytes sender, src, now⟩ =
      [⟨.ackNack ⟨sender, an.readerEntityId⟩ an, src, now⟩] := by
  have hlen : (ackNackBody an).length < 65536 := by
    rw [length_ackNackBody]
    split_ifs <;> decide
  rw [bytes, marshalAckNack, inputsOf_frame h (by decide) hlen (by decide),
    actionOf_ackNack rfl, parseAckNack_ackNackBody]
  rfl

theorem inputsOf_gap (g : Gap) (src : Option UDPAddr) (now : Int) :
    inputsOf cfg ⟨(gap g).bytes sender, src, now⟩ = [] := by
  rw [bytes, marshalGAP, inputsOf_frame h (by decide) (by rw [length_gapBody]; decide)
    (by decide), actionOf_ignored (.inl rfl)]
  rfl

theorem inputsOf_dataFrag (t : Int) {f : DataFrag}
    (hlen : f.payload.length + 32 < 65536) (src : Option UDPAddr) (now : Int) :
    inputsOf cfg ⟨dataFragMessage sender t f, src, now⟩ = [] := by
  have hbody : (dataFragBody f).length < 65536 := by
    rw [length_dataFragBody]
    omega
  have hparse := parseSubmessages_frame submsgDATAFRAG flagEndianness (dataFragBody f) []
    (by decide) hbody
  rw [append_nil, parseSubmessages_nil] at hparse
  have hid : ¬ submsgDATAFRAG = submsgINFO_TS := by decide
  rw [dataFragMessage, inputsOf_infoTS h, marshalDataFrag, hparse, inputsOfSubs, if_neg hid,
    inputsOfSubs, actionOf_ignored (.inr rfl)]
  rfl

end

theorem openData_eq_some {body : Bytes} {w : EntityId}
    (h : openData cfg body = some (w, sn, payload)) :
    ∃ ds wrapped raw, parseDataSubmessage (flagEndianness ||| flagData) body = some ds ∧
      ds.payload = some wrapped ∧ cdrUnwrapPayload wrapped = some raw ∧
      openPayload cfg raw = some payload := by
  unfold openData at h
  cases hds : parseDataSubmessage (flagEndianness ||| flagData) body with
  | none => simp [hds] at h
  | some ds =>
    cases hwr : ds.payload with
    | none => simp [hds, hwr] at h
    | some wrapped =>
      cases hraw : cdrUnwrapPayload wrapped with
      | none => simp [hds, hwr, hraw] at h
      | some raw =>
        simp only [hds, hwr, hraw, map_eq_some_iff, Prod.mk.injEq] at h
        obtain ⟨payload', hopen, -, -, rfl⟩ := h
        exact ⟨ds, wrapped, raw, rfl, hwr, hraw, hopen⟩

theorem openData_of_actionOf {s : Submessage} {g : GUID} {ts' : Int}
    (h : actionOf cfg sender ts s = some (.data g sn payload ts')) :
    s.id = submsgDATA ∧ openData cfg s.body = some (g.entity, sn, payload) := by
  rw [actionOf] at h
  split_ifs at h with hid hhb han
  · obtain ⟨⟨w, n, payload'⟩, hopen, heq⟩ := map_eq_some_iff.1 h
    obtain ⟨rfl, rfl, rfl, -⟩ := Action.data.inj heq
    exact ⟨hid, hopen⟩
  · obtain ⟨hb, -, heq⟩ := map_eq_some_iff.1 h
    cases heq
  · obtain ⟨an, -, heq⟩ := map_eq_some_iff.1 h
    cases heq

theorem mem_inputsOfSubs {src : Option UDPAddr} {now : Int} {subs : List Submessage} {i : Input}
    (h : i ∈ inputsOfSubs cfg sender src now ts subs) :
    ∃ s ∈ subs, ∃ ts', actionOf cfg sender ts' s = some i.action := by
  induction subs generalizing ts with
  | nil => cases h
  | cons s subs ih =>
    rw [inputsOfSubs] at h
    by_cases hid : s.id = submsgINFO_TS
    · rw [if_pos hid] at h
      obtain ⟨s', hs', hact⟩ := ih h
      exact ⟨s', mem_cons_of_mem _ hs', hact⟩
    · rw [if_neg hid] at h
      rcases mem_append.1 h with h | h
      · obtain ⟨a, ha, rfl⟩ := map_eq_some_iff.1 (mem_toList.1 h)
        exact ⟨s, mem_cons_self, ts, ha⟩
      · obtain ⟨s', hs', hact⟩ := ih h
        exact ⟨s', mem_cons_of_mem _ hs', hact⟩

theorem length_of_data_input {src : Option UDPAddr} {now : Int} {subs : List Submessage} {i : Input}
    {g : GUID} {ts' : Int} (hsec : cfg.security = none)
    (h : i ∈ inputsOfSubs cfg sender src now ts subs) (ha : i.action = .data g sn payload ts') :
    ∃ s ∈ subs, s.id = submsgDATA ∧ payload.length + 24 = s.body.length := by
  obtain ⟨s, hs, ts'', hact⟩ := mem_inputsOfSubs h
  rw [ha] at hact
  obtain ⟨hid, hopen⟩ := openData_of_actionOf hact
  obtain ⟨ds, wrapped, raw, hds, hwr, hraw, hpay⟩ := openData_eq_some hopen
  refine ⟨s, hs, hid, ?_⟩
  have hbody := length_payload_of_parseDataSubmessage hds hwr
  have hwrapped := length_of_cdrUnwrapPayload hraw
  rw [openPayload, hsec] at hpay
  rw [← Option.some.inj hpay]
  omega

end Participant

end GoDDS
