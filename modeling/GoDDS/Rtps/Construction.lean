import GoDDS.Rtps.Write

/-!
# What a write puts into its messages
-/

namespace GoDDS

open ByteCodec Go Security List Option UInt16

/-- The submessage a message of a write is built from. -/
inductive Content where
  | data (ds : DataSubmessage)
  | frag (f : DataFrag)

variable {guidPrefix : GuidPrefix} {now : Int}

namespace Content

def marshal : Content → Bytes
  | .data ds =>
    marshalDataSubmessage ds.writerEntityId ds.readerEntityId ds.seqNum (ds.payload.getD [])
  | .frag f => marshalDataFrag f

def message (guidPrefix : GuidPrefix) (now : Int) (c : Content) : Bytes :=
  wrapInRTPSMessage guidPrefix (marshalInfoTS now ++ c.marshal)

def ofSubmessage (s : Submessage) : Option Content :=
  if s.id = submsgDATA then (parseDataSubmessage s.flags s.body).map .data
  else if s.id = submsgDATAFRAG then (parseDataFrag s.body).map .frag
  else none

/-- A strict reader of such a message: one INFO_TS, then one DATA or DATA_FRAG, and nothing else. -/
def ofMessage (msg : Bytes) : Option (Header × Bytes × Content) :=
  (parseHeader msg).bind fun h =>
    match parseSubmessages (msg.drop 20) with
    | ([ts, s], none) =>
      if ts.id = submsgINFO_TS then (ofSubmessage s).map fun c => (h, ts.body, c) else none
    | _ => none

def Intact (guidPrefix : GuidPrefix) (now : Int) (c : Content) : Prop :=
  ofMessage (c.message guidPrefix now) = some (wrapHeader guidPrefix, infoTSBody now, c)

theorem parse_message (guidPrefix : GuidPrefix) (now : Int) (b : Bytes) :
    parseSubmessages ((wrapInRTPSMessage guidPrefix (marshalInfoTS now ++ b)).drop 20) =
      (⟨submsgINFO_TS, flagEndianness, infoTSBody now⟩ :: (parseSubmessages b).1,
        (parseSubmessages b).2) := by
  rw [drop_wrapInRTPSMessage, marshalInfoTS]
  exact parseSubmessages_frame _ _ _ _ (by decide) (by rw [length_infoTSBody]; decide)

theorem intact_of_frame {c : Content} {id flags : UInt8} {body : Bytes}
    (hframe : c.marshal = frame id flags body) (hflags : flags &&& flagEndianness ≠ 0)
    (hlen : body.length < 65536) (hread : ofSubmessage ⟨id, flags, body⟩ = some c) :
    c.Intact guidPrefix now := by
  have hparse := parseSubmessages_frame id flags body [] hflags hlen
  rw [append_nil, parseSubmessages_nil] at hparse
  rw [Intact, ofMessage, message, parseHeader_wrapInRTPSMessage, bind_some, parse_message,
    hframe, hparse]
  simp only [if_true, hread, map_some]

theorem exists_of_intact {c : Content} (h : c.Intact guidPrefix now) :
    ∃ s, s.body.length < 65536 ∧ ofSubmessage s = some c := by
  rw [Intact, ofMessage, message, parseHeader_wrapInRTPSMessage, bind_some, parse_message] at h
  cases hsubs : parseSubmessages c.marshal with
  | mk subs err =>
    rw [hsubs] at h
    match subs, err with
    | [s], none =>
      have hs : s ∈ (parseSubmessages c.marshal).1 := by simp [hsubs]
      simp only [if_true, map_eq_some_iff, Prod.mk.injEq, true_and, exists_eq_right] at h
      exact ⟨s, length_body_lt_fuel hs, h⟩
    | [], none | _ :: _ :: _, none | _, some _ => simp at h

theorem intact_data_iff {w r : EntityId} {sn : SequenceNumber} {p : Bytes} (hp : p ≠ []) :
    (data ⟨r, w, sn, some p⟩).Intact guidPrefix now ↔ p.length + 20 < 65536 := by
  constructor
  · intro h
    obtain ⟨s, hlen, hread⟩ := exists_of_intact h
    unfold ofSubmessage at hread
    split_ifs at hread
    · obtain ⟨ds, hds, heq⟩ := map_eq_some_iff.1 hread
      obtain rfl := data.inj heq
      rw [← length_payload_of_parseDataSubmessage hds rfl] at hlen
      exact hlen
    · obtain ⟨f, -, heq⟩ := map_eq_some_iff.1 hread
      cases heq
  · intro hlen
    have hframe : (data ⟨r, w, sn, some p⟩).marshal =
        frame submsgDATA (flagEndianness ||| flagData) (dataBody w r sn p) := rfl
    refine intact_of_frame hframe (by decide) ?_ ?_
    · rw [length_dataBody]
      exact lt_of_eq_of_lt (Nat.add_comm _ _) hlen
    · rw [ofSubmessage, if_pos rfl]
      exact congrArg (Option.map Content.data) (parseDataSubmessage_dataBody w r sn hp)

theorem intact_frag_iff {f : DataFrag} :
    (frag f).Intact guidPrefix now ↔ f.payload.length + 32 < 65536 := by
  constructor
  · intro h
    obtain ⟨s, hlen, hread⟩ := exists_of_intact h
    unfold ofSubmessage at hread
    split_ifs at hread
    · obtain ⟨ds, -, heq⟩ := map_eq_some_iff.1 hread
      cases heq
    · obtain ⟨g, hg, heq⟩ := map_eq_some_iff.1 hread
      obtain rfl := frag.inj heq
      unfold parseDataFrag at hg
      split_ifs at hg with hshort
      have hpayload : s.body.drop 32 = g.payload := by rw [← Option.some.inj hg]
      rw [← hpayload, length_drop]
      omega
  · intro hlen
    have hframe : (frag f).marshal =
        frame submsgDATAFRAG flagEndianness (dataFragBody f) := rfl
    refine intact_of_frame hframe (by decide) ?_ ?_
    · rw [length_dataFragBody]
      omega
    · have hid : ¬ submsgDATAFRAG = submsgDATA := by decide
      rw [ofSubmessage, if_neg hid, if_pos rfl]
      exact congrArg (Option.map Content.frag) (parseDataFrag_dataFragBody f)

end Content

namespace Writer

/-- What the messages of a payload are built from; `none` when splitting divides by zero. -/
def contents (w : Writer) (seqNum : SequenceNumber) (wirePayload : Bytes) : Option (List Content) :=
  let wrapped := cdrWrapPayload wirePayload
  if (wrapped.length : Int) > w.fragmentSize then
    (splitIntoFragmentsN w.eid seqNum wrapped w.fragmentSize).map fun frags => frags.map .frag
  else some [.data ⟨entityIdUnknown, w.eid, seqNum, some wrapped⟩]

theorem messages_eq (w : Writer) (guidPrefix : GuidPrefix) (seqNum : SequenceNumber) (now : Int)
    (wirePayload : Bytes) : w.messages guidPrefix seqNum now wirePayload =
      (w.contents seqNum wirePayload).map fun cs => cs.map (Content.message guidPrefix now) := by
  unfold messages contents
  dsimp only
  split_ifs
  · rw [Option.map_map]
    congr 1
    funext frags
    rw [Function.comp_apply, List.map_map]
    rfl
  · rfl

/-- The wrapped payload is carried whole: in one DATA, or in fragments whose size is cut to 16
bits. -/
def CarriesWhole (w : Writer) (wirePayload : Bytes) : Prop :=
  if (wirePayload.length + 4 : Int) > w.fragmentSize then
    w.fragmentSize % 65536 ≠ 0 ∧ w.fragmentSize % 65536 + 32 < 65536
  else wirePayload.length + 24 < 65536

theorem toNat_fragmentSize (w : Writer) :
    ((ofNat w.fragmentSize.toNat).toNat : Int) = w.fragmentSize % 65536 := by
  have := w.fragmentSize_pos
  rw [toNat_ofNat']
  omega

theorem split_intact_iff (w : Writer) (guidPrefix : GuidPrefix) (seqNum : SequenceNumber)
    (now : Int) {wrapped : Bytes} (hlong : (wrapped.length : Int) > w.fragmentSize) :
    (∃ frags, splitIntoFragmentsN w.eid seqNum wrapped w.fragmentSize = some frags ∧
        ∀ f ∈ frags, (Content.frag f).Intact guidPrefix now) ↔
      w.fragmentSize % 65536 ≠ 0 ∧ w.fragmentSize % 65536 + 32 < 65536 := by
  have hpos := w.fragmentSize_pos
  have hsize := w.toNat_fragmentSize
  by_cases hzero : ofNat w.fragmentSize.toNat = 0
  · have hmod : w.fragmentSize % 65536 = 0 := by
      rw [← hsize, hzero]
      rfl
    constructor
    · rintro ⟨frags, hfrags, -⟩
      unfold splitIntoFragmentsN at hfrags
      simp [if_neg (show ¬ w.fragmentSize ≤ 0 by omega), hzero] at hfrags
    · rintro ⟨hne, -⟩
      exact absurd hmod hne
  · have hne : (UInt16.ofNat w.fragmentSize.toNat).toNat ≠ 0 := fun h =>
      hzero (UInt16.toNat_inj.1 (by rw [h]; rfl))
    rw [splitIntoFragmentsN_eq hpos hzero]
    simp only [Option.some.injEq, exists_eq_left', List.forall_mem_map, mem_range,
      Content.intact_frag_iff]
    constructor
    · intro h
      have hfirst : 0 < fragmentCount wrapped (ofNat w.fragmentSize.toNat) := by
        rw [lt_fragmentCount_iff hne]
        omega
      have hlen := h 0 hfirst
      simp only [fragmentOf, Nat.zero_mul, drop_zero, length_take] at hlen
      omega
    · rintro ⟨-, hroom⟩ k -
      have hlen := length_take_le (ofNat w.fragmentSize.toNat).toNat
        (wrapped.drop (k * (ofNat w.fragmentSize.toNat).toNat))
      simp only [fragmentOf]
      omega

/-- All messages of a payload can be built and are read back as what they were built from if and
only if the payload fits one DATA submessage, or the fragment size modulo 2^16 is not zero and
leaves room for the fixed fields of a DATA_FRAG. -/
theorem contents_intact_iff (w : Writer) (guidPrefix : GuidPrefix) (seqNum : SequenceNumber)
    (now : Int) (wirePayload : Bytes) :
    (∃ cs, w.contents seqNum wirePayload = some cs ∧ ∀ c ∈ cs, c.Intact guidPrefix now) ↔
      w.CarriesWhole wirePayload := by
  have hlen := length_cdrWrapPayload wirePayload
  have hne : cdrWrapPayload wirePayload ≠ [] := ne_nil_of_length_pos (by omega)
  unfold contents CarriesWhole
  dsimp only
  rw [hlen]
  push_cast
  split_ifs with hlong
  · have hlong' : ((cdrWrapPayload wirePayload).length : Int) > w.fragmentSize := by
      rw [hlen]
      push_cast
      exact hlong
    simp only [map_eq_some_iff, exists_exists_and_eq_and, List.forall_mem_map]
    exact w.split_intact_iff guidPrefix seqNum now hlong'
  · simp only [Option.some.injEq, exists_eq_left', forall_mem_singleton]
    rw [Content.intact_data_iff hne, hlen]

end Writer

end GoDDS
