import GoDDS.Rtps.Endpoint

/-!
# The participant
-/

namespace GoDDS

open ByteCodec Go Security Reader.SameMatch Reader

/-- Payload protection. Sealing may draw on randomness; either direction may fail. -/
structure SecurityPlugin where
  sealPayload : (rnd : Bytes) → (plaintext : Bytes) → Option Bytes
  openPayload : (ciphertext : Bytes) → Option Bytes

structure AccessController where
  canRead : Str → Bool
  canWrite : Str → Bool

structure EndpointPlugin where
  signEndpoint : GuidPrefix → Str → Bytes
  verifyEndpoint : GuidPrefix → Str → Bytes → Bool

/-- Authentication of participant announcements, and of endpoint announcements if the plugin
supports it. -/
structure DiscoveryPlugin where
  signDiscovery : GuidPrefix → Bytes
  verifyDiscovery : GuidPrefix → Bytes → Bool
  endpoint : Option EndpointPlugin

/-- What a participant is created with. `filterParse` compiles filters; flags tell which sockets and
callbacks exist. -/
structure ParticipantConfig where
  domain : Nat
  guidPrefix : GuidPrefix
  persistDir : Str
  tsnConfig : Option (Str → Option TSNParams)
  metaSockPort : Nat
  dataSockPort : Nat
  dataMcastSock : Bool
  relaySock : Bool
  security : Option SecurityPlugin
  accessControl : Option AccessController
  discoveryPlugin : Option DiscoveryPlugin
  livelinessCb : Bool
  filterParse : Str → List Str → Option (Bytes → Bool)

def ParticipantConfig.ofDefaults (guidPrefix : GuidPrefix) : ParticipantConfig :=
  { domain := 0, guidPrefix := guidPrefix, persistDir := [], tsnConfig := none, metaSockPort := 7410,
    dataSockPort := 7411, dataMcastSock := false, relaySock := false, security := none,
    accessControl := none, discoveryPlugin := none, livelinessCb := false,
    filterParse := fun _ _ => none }

structure EndpointInfo where
  guid : GUID
  topicName : Str := []
  typeName : Str := []
  isWriter : Bool := false
  partitions : List Str := []
  ownershipExclusive : Bool := false
  ownershipStrength : Int32 := 0
  livelinessLease : Int := 0
  contentFilter : Option ContentFilterSpec := none

structure ParticipantProxy where
  guid : GUID
  metatrafficUnicast : Locator
  defaultUnicast : Locator
  builtinEndpoints : UInt32
  leaseDuration : Int
  lastSeen : Int
  relayID : Str

/-- The endpoints of this participant and the ones it has heard of. -/
structure SEDPService where
  localWriters : Registry EndpointInfo.guid
  localReaders : Registry EndpointInfo.guid
  remoteWriters : Registry EndpointInfo.guid
  remoteReaders : Registry EndpointInfo.guid
  remoteReaderLocs : Table GUID Locator
  endpointMatches : UInt64

def ParticipantProxy.key (proxy : ParticipantProxy) : GuidPrefix := proxy.guid.guidPrefix

/-- The participants it has heard of. -/
structure SPDPService where
  peers : Registry ParticipantProxy.key
  announcesReceived : UInt64
  peerEvictions : UInt64

structure Counters where
  writes : UInt64
  delivers : UInt64
  drops : UInt64
  bytesWritten : UInt64
  bytesDelivered : UInt64

def Counters.zero : Counters := ⟨0, 0, 0, 0, 0⟩

structure Metrics where
  total : Counters
  topics : Str → Counters

def Metrics.tick (m : Metrics) (topic : Str) (f : Counters → Counters) : Metrics :=
  { total := f m.total, topics := Function.update m.topics topic (f (m.topics topic)) }

structure File where
  payload : Bytes
  origin : Publication

/-- A participant. `stuck` is set when a packet handler is in a loop that does not end. `seqCounter`
belongs to the process, which has no other participant. -/
structure Participant extends config : ParticipantConfig where
  closed : Bool
  stuck : Bool
  writers : Registry (fun w : Writer => w.eid)
  readers : Registry (fun r : Reader => r.eid)
  writerLocators : Table GUID Locator
  entityCounter : UInt32
  seqCounter : UInt32
  lastSample : Table Str Kept
  files : Table Str File
  metrics : Metrics
  ownership : Table Str OwnershipState
  antiReplay : Option ReplayGuard
  sedp : SEDPService
  spdp : SPDPService

namespace Participant

def new (cfg : ParticipantConfig) (antiReplay : Option ReplayGuard) : Participant :=
  { config := cfg, closed := false, stuck := false, writers := Registry.empty,
    readers := Registry.empty, writerLocators := Table.empty, entityCounter := 0,
    seqCounter := 0, lastSample := Table.empty, files := Table.empty,
    metrics := ⟨.zero, fun _ => .zero⟩, ownership := Table.empty, antiReplay := antiReplay,
    sedp := ⟨Registry.empty, Registry.empty, Registry.empty, Registry.empty, Table.empty, 0⟩,
    spdp := ⟨Registry.empty, 0, 0⟩ }

structure SameSetup (p q : Participant) : Prop where
  cfg : q.config = p.config
  sedp : q.sedp = p.sedp
  spdp : q.spdp = p.spdp

variable (p : Participant)

theorem SameSetup.refl : SameSetup p p := ⟨rfl, rfl, rfl⟩

theorem SameSetup.trans {p q s : Participant} (h : SameSetup p q) (h' : SameSetup q s) :
    SameSetup p s :=
  ⟨h'.cfg.trans h.cfg, h'.sedp.trans h.sedp, h'.spdp.trans h.spdp⟩

def ownershipStateFor (p : Participant) (topic : Str) : OwnershipState :=
  (p.ownership topic).getD OwnershipState.new

def ownershipAllows (p : Participant) (topic : Str) (source : GUID) : Bool :=
  match p.ownership topic with
  | none => true
  | some o => o.allows source

/-! ## Dispatch -/

/-- A sample on its way to the readers, all if the topic filter is empty. A remote one carries the
low word of `sn`. -/
structure Dispatch where
  source : GUID
  topicFilter : Str
  payload : Bytes
  ts : Int
  seqNum : UInt64
  sn : UInt64
  writerPartitions : List Str
  now : Int

def Dispatch.sample (d : Dispatch) (r : Reader) : Sample :=
  { topic := r.topic, payload := d.payload, timestamp := d.ts, sequenceNumber := d.seqNum,
    writerGUID := d.source }

def Dispatch.origin (d : Dispatch) : Origin :=
  { sn := d.sn, topic := if d.topicFilter = [] then none else some d.topicFilter }

structure Outcome where
  effects : List Effect
  count : Counters → Counters

def Outcome.skip : Outcome := ⟨[], id⟩

def deliverToReader (d : Dispatch) (r : Reader) : Reader × Outcome :=
  if r.closed then (r, .skip)
  else
    let pushed := r.push (d.sample r)
    let byteLen := UInt64.ofNat d.payload.length
    (pushed.1,
      { effects := [.dispatch r.eid d.source d.origin (d.sample r) pushed.2.1]
        count := fun c =>
          { c with
            delivers := if pushed.2.1 then c.delivers + 1 else c.delivers
            bytesDelivered := if pushed.2.1 then c.bytesDelivered + byteLen else c.bytesDelivered
            drops := c.drops + pushed.2.2 } })

def Dispatch.topicFits (d : Dispatch) (r : Reader) : Bool :=
  d.topicFilter = [] || r.topic = d.topicFilter || topicMatches r.topic d.topicFilter

theorem Dispatch.topicFits_iff {d : Dispatch} {r : Reader} : d.topicFits r ↔
      d.topicFilter = [] ∨ topicMatches r.topic d.topicFilter := by
  have hself : r.topic = d.topicFilter → topicMatches r.topic d.topicFilter := fun h =>
    h ▸ topicMatches_self _
  simp only [Dispatch.topicFits, Bool.or_eq_true, decide_eq_true_eq, or_assoc, or_iff_right_of_imp hself]

def Dispatch.passesFilters (d : Dispatch) (r : Reader) : Bool :=
  (r.filter.all fun f => f (d.sample r)) && evalContentFilter r.contentFilter d.payload

/-- What the loop of `dispatchToReaders` does for one reader. -/
def offer (p : Participant) (d : Dispatch) (r : Reader) : Reader × Outcome :=
  if !d.topicFits r then (r, .skip)
  else if !r.acceptsSource p.guidPrefix d.source then (r, .skip)
  else
    let r := r.touchLiveliness d.source d.now
    if d.source.guidPrefix = p.guidPrefix ∧ !partitionsMatch d.writerPartitions r.partitions then
      (r, .skip)
    else if !p.ownershipAllows r.topic d.source then (r, .skip)
    else
      let passed := r.passesTimeBasedFilter d.source d.now
      if !passed.2 then (passed.1, ⟨[], fun c => { c with drops := c.drops + 1 }⟩)
      else if !d.passesFilters passed.1 then (passed.1, .skip)
      else deliverToReader d passed.1

theorem sameMatch_deliverToReader (d : Dispatch) (r : Reader) :
    Reader.SameMatch r (deliverToReader d r).1 := by
  unfold deliverToReader
  split_ifs
  · exact refl r
  · exact sameMatch_push r _

theorem sameMatch_offer (d : Dispatch) (r : Reader) : Reader.SameMatch r (p.offer d r).1 := by
  have htouch := sameMatch_touchLiveliness r d.source d.now
  have hpass := htouch.trans
    (sameMatch_passesTimeBasedFilter (r.touchLiveliness d.source d.now) d.source d.now)
  unfold offer
  dsimp only
  split_ifs
  · exact refl r
  · exact refl r
  · exact htouch
  · exact htouch
  · exact hpass
  · exact hpass
  · exact hpass.trans (sameMatch_deliverToReader d _)

theorem sample_congr {r r' : Reader} (h : r'.config = r.config) (d : Dispatch) :
    d.sample r' = d.sample r := by
  unfold Dispatch.sample
  rw [congrArg ReaderConfig.topic h]

theorem offer_effects {p : Participant} {d : Dispatch} {r : Reader} {e : Effect}
    (h : e ∈ (p.offer d r).2.effects) :
    (∃ queued, e = .dispatch r.eid d.source d.origin (d.sample r) queued) ∧
      r.closed = false ∧ d.topicFits r ∧ r.acceptsSource p.guidPrefix d.source ∧
      p.ownershipAllows r.topic d.source := by
  have htouch := sameMatch_touchLiveliness r d.source d.now
  have hpass := htouch.trans
    (sameMatch_passesTimeBasedFilter (r.touchLiveliness d.source d.now) d.source d.now)
  unfold offer at h
  dsimp only at h
  split_ifs at h with hfits hacc hpart hown htime hfilter
  · cases h
  · cases h
  · cases h
  · cases h
  · cases h
  · cases h
  · unfold deliverToReader at h
    split_ifs at h with hclosed
    · cases h
    · rw [List.mem_singleton] at h
      rw [hpass.eid, sample_congr hpass.cfg] at h
      rw [hpass.closed] at hclosed
      rw [congrArg ReaderConfig.topic htouch.cfg] at hown
      exact ⟨⟨_, h⟩, by simpa using hclosed, by simpa using hfits, by simpa using hacc,
        by simpa using hown⟩

theorem length_offer_effects (d : Dispatch) (r : Reader) : (p.offer d r).2.effects.length ≤ 1 := by
  unfold offer
  dsimp only
  split_ifs
  all_goals try exact Nat.zero_le _
  unfold deliverToReader
  split_ifs
  · exact Nat.zero_le _
  · exact le_rfl

theorem offer_effects_eq (d : Dispatch) (r : Reader) :
    (p.offer d r).2.effects = [] ∨ ∃ queued, (p.offer d r).2.effects =
        [.dispatch r.eid d.source d.origin (d.sample r) queued] := by
  have hlen := length_offer_effects p d r
  cases heff : (p.offer d r).2.effects with
  | nil => exact .inl rfl
  | cons e rest =>
    have hmem : e ∈ (p.offer d r).2.effects := by simp [heff]
    obtain ⟨⟨queued, he⟩, -⟩ := offer_effects hmem
    rw [heff, List.length_cons] at hlen
    have hrest : rest = [] := List.eq_nil_of_length_eq_zero (by omega)
    exact .inr ⟨queued, by rw [he, hrest]⟩

/-- The one funnel every sample goes through on its way to the readers of a participant. -/
def dispatchToReaders (p : Participant) (d : Dispatch) : Participant × List Effect :=
  ({ p with
      readers := p.readers.map (fun r => (p.offer d r).1) fun r => (sameMatch_offer p d r).eid
      metrics := p.readers.items.foldl
        (fun m r => m.tick r.topic (p.offer d r).2.count) p.metrics },
    p.readers.items.flatMap fun r => (p.offer d r).2.effects)

theorem dispatchToReaders_effects {p : Participant} {d : Dispatch} {e : Effect}
    (h : e ∈ (p.dispatchToReaders d).2) :
    ∃ r ∈ p.readers.items, (∃ queued, e = .dispatch r.eid d.source d.origin (d.sample r) queued) ∧
      r.closed = false ∧ d.topicFits r ∧ r.acceptsSource p.guidPrefix d.source ∧
      p.ownershipAllows r.topic d.source := by
  obtain ⟨r, hr, he⟩ := List.mem_flatMap.1 h
  exact ⟨r, hr, offer_effects he⟩

theorem get?_dispatchToReaders (d : Dispatch) (eid : EntityId) :
    (p.dispatchToReaders d).1.readers.get? eid =
      (p.readers.get? eid).map fun r => (p.offer d r).1 :=
  Registry.get?_map _ _ (fun r => (sameMatch_offer p d r).eid) _

end Participant

end GoDDS
