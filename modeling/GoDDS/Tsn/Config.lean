import GoDDS.Rtps.Construction
import GoDDS.Rtps.Local

/-!
# TSN streams

A stream of `tsn.go` bounds the fragments of its topic's writers by its maximum frame size, which is
checked for its sign only, while fragment sizes and submessage lengths have 16 bits.
-/

namespace GoDDS.Tsn

open ByteCodec Go Participant

structure Stream where
  topic : Str
  pcp : UInt8
  dscp : UInt8
  maxFrameSize : Int
  maxIntervalFrames : Int
  intervalUS : Int
  txOffsetUS : Int
  deriving DecidableEq

inductive Field where
  | maxFrameSize
  | maxIntervalFrames
  | intervalUS
  | txOffsetUS

inductive ConfigError where
  | emptyTopic (index : Nat)
  | pcpRange (topic : Str) (pcp : UInt8)
  | dscpRange (topic : Str) (dscp : UInt8)
  | negative (topic : Str) (field : Field)

structure StreamConfig where
  streams : List Stream

namespace Stream

def validate (s : Stream) (index : Nat) : Option ConfigError :=
  if s.topic = [] then some (.emptyTopic index)
  else if s.pcp > 7 then some (.pcpRange s.topic s.pcp)
  else if s.dscp > 63 then some (.dscpRange s.topic s.dscp)
  else if s.maxFrameSize < 0 then some (.negative s.topic .maxFrameSize)
  else if s.maxIntervalFrames < 0 then some (.negative s.topic .maxIntervalFrames)
  else if s.intervalUS < 0 then some (.negative s.topic .intervalUS)
  else if s.txOffsetUS < 0 then some (.negative s.topic .txOffsetUS)
  else none

/-- What is taken off the frame size for headers. -/
def rtpsHeaderOverhead : Int := 48

def maxFragPayload (s : Stream) : Int :=
  if s.maxFrameSize ≤ rtpsHeaderOverhead then 0 else s.maxFrameSize - rtpsHeaderOverhead

end Stream

namespace StreamConfig

def validate (c : StreamConfig) : Option ConfigError :=
  c.streams.zipIdx.findSome? fun x => x.1.validate x.2

def streamForTopic (c : StreamConfig) (topic : Str) : Option Stream :=
  c.streams.find? fun s => s.topic = topic

def adapter (c : StreamConfig) (topic : Str) : Option TSNParams :=
  (c.streamForTopic topic).map fun s => ⟨s.maxFragPayload⟩

end StreamConfig

def fragmentSizeOf (s : Stream) : Int :=
  if s.maxFrameSize ≤ Stream.rtpsHeaderOverhead then maxFragmentPayload
  else s.maxFrameSize - Stream.rtpsHeaderOverhead

theorem fragmentSize_eq {c : StreamConfig} {p : Participant} {topic : Str} {s : Stream} {qos : QoS}
    {w : Writer} (hcfg : p.tsnConfig = some c.adapter) (hs : c.streamForTopic topic = some s)
    (hw : w.config = p.writerConfig topic qos) : w.fragmentSize = fragmentSizeOf s := by
  have hstream : w.tsnStream = some ⟨s.maxFragPayload⟩ := by
    rw [congrArg WriterConfig.tsnStream hw, writerConfig, hcfg]
    show c.adapter topic = _
    rw [StreamConfig.adapter, hs]
    rfl
  unfold Writer.fragmentSize fragmentSizeOf
  rw [hstream]
  unfold Stream.maxFragPayload
  dsimp only
  split_ifs with hsmall hpos hpos
  · exact absurd hpos (lt_irrefl _)
  · rfl
  · rfl
  · omega

/-- Building the messages of a write does not panic, and each message is intact. -/
def WellBuilt (p : Participant) (w : Writer) (payload rnd : Bytes) (now : Int) : Prop :=
  (p.write w payload rnd now).error ≠ some .divideByZero ∧
    ∀ wire, Participant.sealPayload p.config rnd payload = some wire →
      ∀ cs, { w with seq := w.seq + 1 }.contents (u64ToSN (w.seq + 1)) wire = some cs →
        ∀ c ∈ cs, c.Intact p.guidPrefix now

theorem write_error_iff {p : Participant} {w : Writer} {payload rnd wire : Bytes} {now : Int}
    (hopen : w.closed = false)
    (hfits : ¬ (0 < w.qos.maxSampleSize ∧ w.qos.maxSampleSize < payload.length))
    (hseal : sealPayload p.config rnd payload = some wire) :
    (p.write w payload rnd now).error = some .divideByZero ↔
      { w with seq := w.seq + 1 }.contents (u64ToSN (w.seq + 1)) wire = none := by
  have hmsgs := { w with seq := w.seq + 1 }.messages_eq p.guidPrefix (u64ToSN (w.seq + 1)) now wire
  have hseal' : sealPayload
      ((p.countWrite w.topic payload).setWriter { w with seq := w.seq + 1 }).config
      rnd payload = some wire := hseal
  have hmsgs' : { w with seq := w.seq + 1 }.messages
      ((p.countWrite w.topic payload).setWriter { w with seq := w.seq + 1 }).guidPrefix
      (u64ToSN (w.seq + 1)) now wire = _ := hmsgs
  rw [write, if_neg (by simp [hopen]), if_neg hfits]
  dsimp only
  rw [hseal']
  dsimp only
  rw [hmsgs']
  cases { w with seq := w.seq + 1 }.contents (u64ToSN (w.seq + 1)) wire with
  | none => simp
  | some cs => simp

/-- The messages of a write on a configured topic are built and read back intact if and only if the
sealed payload fits one DATA submessage, or the fragment size, cut to 16 bits, is neither zero nor
too large for a DATA_FRAG. -/
theorem message_construction_iff {c : StreamConfig} {q p : Participant} {topic : Str} {s : Stream}
    {qos : QoS} {w : Writer} {payload rnd wire : Bytes} (now : Int)
    (hcfg : q.tsnConfig = some c.adapter) (hs : c.streamForTopic topic = some s)
    (hw : w.config = q.writerConfig topic qos) (hopen : w.closed = false)
    (hfits : ¬ (0 < w.qos.maxSampleSize ∧ w.qos.maxSampleSize < payload.length))
    (hseal : Participant.sealPayload p.config rnd payload = some wire) :
    WellBuilt p w payload rnd now ↔ if (wire.length + 4 : Int) > fragmentSizeOf s then
        fragmentSizeOf s % 65536 ≠ 0 ∧ fragmentSizeOf s % 65536 + 32 < 65536
      else wire.length + 24 < 65536 := by
  have hsize : { w with seq := w.seq + 1 }.fragmentSize = fragmentSizeOf s :=
    fragmentSize_eq hcfg hs hw
  rw [← hsize]
  refine Iff.trans ?_ ({ w with seq := w.seq + 1 }.contents_intact_iff p.guidPrefix
    (u64ToSN (w.seq + 1)) now wire)
  rw [WellBuilt, Ne, write_error_iff hopen hfits hseal, ← Ne, Option.ne_none_iff_exists']
  constructor
  · rintro ⟨⟨cs, hcs⟩, hall⟩
    exact ⟨cs, hcs, hall wire hseal cs hcs⟩
  · rintro ⟨cs, hcs, hall⟩
    refine ⟨⟨cs, hcs⟩, fun wire' hwire' cs' hcs' => ?_⟩
    obtain rfl := Option.some.inj (hseal.symm.trans hwire')
    obtain rfl := Option.some.inj (hcs.symm.trans hcs')
    exact hall

def oneStream (maxFrameSize : Int) : StreamConfig := ⟨[⟨str "t", 0, 0, maxFrameSize, 0, 0, 0⟩]⟩

def streaming (maxFrameSize : Int) : Participant :=
  Participant.new
    { ParticipantConfig.ofDefaults (FixedBytes.copy 12 [1]) with
      tsnConfig := some (oneStream maxFrameSize).adapter } none

theorem message_construction_three :
    let p := streaming 50
    let w := Writer.new (p.writerConfig (str "t") defaultQoS)
    (oneStream 50).validate = none ∧ WellBuilt p w [1, 2, 3] [] 0 := by
  intro p w
  have hs : (oneStream 50).streamForTopic (str "t") = some ⟨str "t", 0, 0, 50, 0, 0, 0⟩ := by decide
  have hw : w.config = p.writerConfig (str "t") defaultQoS := rfl
  have hseal : sealPayload p.config [] [1, 2, 3] = some [1, 2, 3] := rfl
  exact ⟨by decide, (message_construction_iff 0 rfl hs hw rfl (by decide) hseal).2 (by decide)⟩

/-- A frame size of 65584 gives a fragment size of 65536, which is zero in 16 bits. -/
theorem fragment_size_zero :
    let p := streaming 65584
    let w := Writer.new (p.writerConfig (str "t") defaultQoS)
    (oneStream 65584).validate = none ∧
      (p.write w (List.replicate 65533 0) [] 0).error = some .divideByZero := by
  intro p w
  have hfits : ¬ (0 < w.qos.maxSampleSize ∧
      w.qos.maxSampleSize < (List.replicate 65533 (0 : UInt8)).length) :=
    fun h => lt_irrefl 0 h.1
  have hlong : ((cdrWrapPayload (List.replicate 65533 0)).length : Int) > 65536 := by
    rw [length_cdrWrapPayload, List.length_replicate]
    decide
  have hsize : { w with seq := w.seq + 1 }.fragmentSize = 65536 := by decide
  refine ⟨by decide, (write_error_iff rfl hfits rfl).2 ?_⟩
  unfold Writer.contents
  rw [hsize, if_pos hlong]
  rfl

end GoDDS.Tsn
