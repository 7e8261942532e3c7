import GoDDS.Policy
import GoDDS.Rtps.Fragment
import GoDDS.Rtps.Reliable
import GoDDS.Security.Replay

/-!
# Readers and writers

The endpoint state of `participant.go` and the operations that touch one endpoint only.
-/

namespace GoDDS

open ByteCodec Go Security

inductive Outgoing where
  | ackNack (an : AckNack)
  | gap (g : Gap)
  | heartbeat (hb : Heartbeat)
  | message (msg : Bytes)
  deriving DecidableEq

def Outgoing.bytes (guidPrefix : GuidPrefix) : Outgoing → Bytes
  | .ackNack an => wrapInRTPSMessage guidPrefix (marshalAckNack an)
  | .gap g => wrapInRTPSMessage guidPrefix (marshalGAP g)
  | .heartbeat hb => wrapInRTPSMessage guidPrefix (marshalHeartbeat hb)
  | .message msg => msg

/-- Where a sample comes from: the full sequence number, and the topic it was written on when that
is known. -/
structure Origin where
  sn : UInt64
  topic : Option Str
  deriving DecidableEq

inductive LivelinessEvent where
  | gained
  | lost
  deriving DecidableEq

/-- What a participant does to the world around it. -/
inductive Effect where
  | unicast (dst : UDPAddr) (peer : GuidPrefix) (out : Outgoing)
  | multicast (dst : UDPAddr) (msg : Bytes)
  | dispatch (reader : EntityId) (source : GUID) (origin : Origin) (sample : Sample)
      (queued : Bool)
  | lateJoin (reader : EntityId) (origin : Publication) (sample : Sample) (queued : Bool)
  | replayCheck (source : GUID) (sn : UInt64) (ts : Int) (verdict : Verdict)
  | liveliness (guid : GUID) (event : LivelinessEvent)
  | livelinessLost (reader : EntityId) (writer : GUID)
  deriving DecidableEq

/-! ## Readers -/

/-- What a reader is created with. `livelinessLostCb` tells whether there is a callback. A channel
has room for one. -/
structure ReaderConfig where
  topic : Str
  eid : EntityId
  reliable : Bool
  filter : Option (Sample → Bool)
  contentFilter : Option ContentFilterSpec
  backPressure : BackPressure
  partitions : List Str
  minSeparation : Int
  livelinessLostCb : Bool
  depth : Nat
  depth_pos : 0 < depth

def ReaderConfig.ofDefaults (topic : Str) (eid : EntityId) (reliable : Bool) : ReaderConfig :=
  { topic := topic, eid := eid, reliable := reliable, filter := none, contentFilter := none,
    backPressure := .dropNewest, partitions := [], minSeparation := 0, livelinessLostCb := false,
    depth := 64, depth_pos := by decide }

/-- A reader: its channel, remote writers and trackers, last deliveries for the time-based filter,
and clocks. -/
structure Reader extends config : ReaderConfig where
  ch : List Sample
  closed : Bool
  sources : Finset GUID
  trackers : Table GUID RecvTracker
  lastDelivered : Table GUID Int
  writerLease : Table GUID Int
  lastSeenAlive : Table GUID Int
  livelinessFired : Table GUID Bool

namespace Reader

def new (cfg : ReaderConfig) : Reader :=
  { config := cfg, ch := [], closed := false, sources := ∅, trackers := Table.empty,
    lastDelivered := Table.empty, writerLease := Table.empty, lastSeenAlive := Table.empty,
    livelinessFired := Table.empty }

/-- A reader takes what its own participant or a matched writer sends. -/
def acceptsSource (r : Reader) (own : GuidPrefix) (g : GUID) : Bool :=
  if r.sources = ∅ then g.guidPrefix = own
  else g.guidPrefix = own || g ∈ r.sources

def addSourceGUID (r : Reader) (g : GUID) : Reader := { r with sources := insert g r.sources }

def trackerFor (r : Reader) (g : GUID) : RecvTracker := (r.trackers g).getD RecvTracker.new

def setTracker (r : Reader) (g : GUID) (rt : RecvTracker) : Reader :=
  { r with trackers := r.trackers.set g rt }

def registerWriterLease (r : Reader) (g : GUID) (lease now : Int) : Reader :=
  { r with
    writerLease := r.writerLease.set g lease
    lastSeenAlive := r.lastSeenAlive.set g now
    livelinessFired := r.livelinessFired.set g false }

def touchLiveliness (r : Reader) (g : GUID) (now : Int) : Reader :=
  match r.writerLease g with
  | none => r
  | some _ =>
    { r with
      lastSeenAlive := r.lastSeenAlive.set g now
      livelinessFired := r.livelinessFired.set g false }

def passesTimeBasedFilter (r : Reader) (source : GUID) (now : Int) : Reader × Bool :=
  if r.minSeparation ≤ 0 then (r, true)
  else if (r.lastDelivered source).any fun last => now - last < r.minSeparation then (r, false)
  else ({ r with lastDelivered := r.lastDelivered.set source now }, true)

/-- Put a sample into the channel under the back-pressure policy: if it went in, and how many were
dropped. Waiting is not modelled. -/
def push (r : Reader) (s : Sample) : Reader × Bool × UInt64 :=
  match r.backPressure with
  | .dropOldest =>
    if r.ch.length < r.depth then ({ r with ch := r.ch ++ [s] }, true, 0)
    else
      let evicted : UInt64 := if r.ch.isEmpty then 0 else 1
      if r.ch.tail.length < r.depth then ({ r with ch := r.ch.tail ++ [s] }, true, evicted)
      else ({ r with ch := r.ch.tail }, false, evicted + 1)
  | .block => ({ r with ch := r.ch ++ [s] }, true, 0)
  | .dropNewest =>
    if r.ch.length < r.depth then ({ r with ch := r.ch ++ [s] }, true, 0) else (r, false, 1)

theorem acceptsSource_iff {r : Reader} {own : GuidPrefix} {g : GUID} :
    r.acceptsSource own g ↔ g.guidPrefix = own ∨ g ∈ r.sources := by
  unfold acceptsSource
  split_ifs with h
  · simp [h]
  · simp

/-- Two readers that differ at most in their channel and their clocks. -/
structure SameMatch (r r' : Reader) : Prop where
  cfg : r'.config = r.config
  closed : r'.closed = r.closed
  sources : r'.sources = r.sources
  trackers : r'.trackers = r.trackers

theorem SameMatch.refl (r : Reader) : SameMatch r r := ⟨rfl, rfl, rfl, rfl⟩

theorem SameMatch.trans {r r' r'' : Reader} (h : SameMatch r r') (h' : SameMatch r' r'') :
    SameMatch r r'' :=
  ⟨h'.cfg.trans h.cfg, h'.closed.trans h.closed, h'.sources.trans h.sources,
    h'.trackers.trans h.trackers⟩

theorem SameMatch.eid {r r' : Reader} (h : SameMatch r r') : r'.eid = r.eid :=
  congrArg ReaderConfig.eid h.cfg

theorem sameMatch_touchLiveliness (r : Reader) (g : GUID) (now : Int) :
    SameMatch r (r.touchLiveliness g now) := by
  unfold touchLiveliness
  split
  · exact SameMatch.refl r
  · exact ⟨rfl, rfl, rfl, rfl⟩

theorem sameMatch_passesTimeBasedFilter (r : Reader) (g : GUID) (now : Int) :
    SameMatch r (r.passesTimeBasedFilter g now).1 := by
  unfold passesTimeBasedFilter
  split_ifs
  · exact SameMatch.refl r
  · exact SameMatch.refl r
  · exact ⟨rfl, rfl, rfl, rfl⟩

theorem sameMatch_push (r : Reader) (s : Sample) : SameMatch r (r.push s).1 := by
  unfold push
  split
  · dsimp only
    split_ifs <;> exact ⟨rfl, rfl, rfl, rfl⟩
  · exact ⟨rfl, rfl, rfl, rfl⟩
  · split_ifs <;> exact ⟨rfl, rfl, rfl, rfl⟩

theorem push_of_room {r : Reader} (h : r.ch.length < r.depth) (s : Sample) :
    r.push s = ({ r with ch := r.ch ++ [s] }, true, 0) := by
  unfold push
  cases r.backPressure <;> simp [h]

end Reader

/-! ## Writers -/

structure TSNParams where
  maxFragPayload : Int

/-- The channel `waitDrain` waits on: open, or closed for good. -/
inductive DrainCh where
  | opened
  | closed
  deriving DecidableEq

def dataMessage (guidPrefix : GuidPrefix) (writerEID : EntityId) (seqNum : SequenceNumber)
    (now : Int) (wirePayload : Bytes) : Bytes :=
  wrapInRTPSMessage guidPrefix (marshalInfoTS now ++
    marshalDataSubmessage writerEID entityIdUnknown seqNum (cdrWrapPayload wirePayload))

def dataFragMessage (guidPrefix : GuidPrefix) (now : Int) (f : DataFrag) : Bytes :=
  wrapInRTPSMessage guidPrefix (marshalInfoTS now ++ marshalDataFrag f)

/-- What a writer is created with. `tsnSock` tells whether it has a socket of its own. -/
structure WriterConfig where
  topic : Str
  eid : EntityId
  qos : QoS
  tsnStream : Option TSNParams
  tsnSock : Bool

def WriterConfig.reliable (w : WriterConfig) : Bool := w.qos.reliability = .reliable

/-- A writer: the last number, the highest acknowledged, the history, and, if reliable, the drain
channel. -/
structure Writer extends config : WriterConfig where
  closed : Bool
  seq : UInt64
  acked : UInt64
  history : SendHistory
  drainCh : Option DrainCh
  livelinessSeq : UInt32
  drainCh_isSome : drainCh.isSome = config.reliable

namespace Writer

def new (cfg : WriterConfig) : Writer :=
  { config := cfg, closed := false, seq := 0, acked := 0, history := newSendHistory,
    drainCh := if cfg.reliable then some .opened else none, livelinessSeq := 0,
    drainCh_isSome := by cases h : cfg.reliable <;> simp }

def fragmentSize (w : Writer) : Int :=
  match w.tsnStream with
  | some stream => if stream.maxFragPayload > 0 then stream.maxFragPayload else maxFragmentPayload
  | none => maxFragmentPayload

theorem fragmentSize_pos (w : Writer) : 0 < w.fragmentSize := by
  unfold fragmentSize
  split
  · split_ifs with h
    · exact h
    · decide
  · decide

/-- The messages that carry a payload: one DATA, or DATA_FRAGs if it is longer than the fragment
size. `none` when splitting divides by zero. -/
def messages (w : Writer) (guidPrefix : GuidPrefix) (seqNum : SequenceNumber) (now : Int)
    (wirePayload : Bytes) : Option (List Bytes) :=
  let wrapped := cdrWrapPayload wirePayload
  if (wrapped.length : Int) > w.fragmentSize then
    (splitIntoFragmentsN w.eid seqNum wrapped w.fragmentSize).map fun frags =>
      frags.map (dataFragMessage guidPrefix now)
  else some [dataMessage guidPrefix w.eid seqNum now wirePayload]

theorem messages_ne_nil {w : Writer} {guidPrefix : GuidPrefix} {seqNum : SequenceNumber} {now : Int}
    {wirePayload : Bytes} {msgs : List Bytes}
    (h : w.messages guidPrefix seqNum now wirePayload = some msgs) : msgs ≠ [] := by
  unfold messages at h
  dsimp only at h
  split_ifs at h
  · obtain ⟨frags, hfrags, rfl⟩ := Option.map_eq_some_iff.1 h
    have hne : cdrWrapPayload wirePayload ≠ [] := by
      intro hnil
      have hlen := length_cdrWrapPayload wirePayload
      rw [hnil] at hlen
      simp at hlen
    rw [Ne, List.map_eq_nil_iff]
    exact splitIntoFragmentsN_ne_nil hne hfrags
  · obtain rfl := Option.some.inj h
    exact List.cons_ne_nil _ _

def heartbeat (w : Writer) : Option (Writer × Heartbeat) :=
  w.history.firstLast.map fun fl =>
    ({ w with history := { w.history with hbCount := w.history.hbCount + 1 } },
      { readerEntityId := entityIdUnknown
        writerEntityId := w.eid
        firstSN := u64ToSN fl.1
        lastSN := u64ToSN fl.2
        count := w.history.hbCount + 1
        liveliness := false })

/-- What a writer knows to be acknowledged: one number for all readers. -/
def advanceAcked (w : Writer) (ackBase : UInt64) : Writer :=
  if ackBase = 0 then w
  else
    let acked := if ackBase - 1 > w.acked then ackBase - 1 else w.acked
    { w with
      acked := acked
      drainCh := w.drainCh.map fun c => if acked ≥ w.seq then .closed else c
      drainCh_isSome := by simpa using w.drainCh_isSome }

/-- `waitDrain`, called at `called`, returns nil at `now`: nothing to wait for, or the channel is
closed. -/
def waitDrain (called now : Writer) : Bool :=
  called.drainCh = none || called.acked ≥ called.seq || now.drainCh = some .closed

@[simp] theorem advanceAcked_config (w : Writer) (b : UInt64) :
    (w.advanceAcked b).config = w.config := by
  unfold advanceAcked
  split_ifs <;> rfl

@[simp] theorem advanceAcked_seq (w : Writer) (b : UInt64) : (w.advanceAcked b).seq = w.seq := by
  unfold advanceAcked
  split_ifs <;> rfl

@[simp] theorem advanceAcked_history (w : Writer) (b : UInt64) :
    (w.advanceAcked b).history = w.history := by
  unfold advanceAcked
  split_ifs <;> rfl

end Writer

end GoDDS
