import GoDDS.Rtps.Cdr
import GoDDS.Rtps.Receive

/-!
# Endpoint discovery

The announcements of `sedp.go`.
-/

namespace GoDDS

open ByteCodec Go

/-! ## Announcing -/

def defaultTypeName : Str := str "CDR_BLOB"

namespace ParticipantConfig

def endpointPlugin (p : ParticipantConfig) : Option EndpointPlugin :=
  p.discoveryPlugin.bind fun plugin => plugin.endpoint

def addWriterQoS (info : EndpointInfo) (e : PLCDREncoder) : PLCDREncoder :=
  let e :=
    if info.ownershipExclusive then
      (e.addUint32 pidOwnership 1).addUint32 pidOwnershipStrength info.ownershipStrength.toUInt32
    else e
  if 0 < info.livelinessLease then
    e.addInt64 pidLivelinessLeaseDuration (Int64.ofInt info.livelinessLease)
  else e

def endpointParams (p : ParticipantConfig) (info : EndpointInfo) : PLCDREncoder :=
  let typeName := if info.typeName = [] then defaultTypeName else info.typeName
  let e := PLCDREncoder.new.addGUID pidEndpointGUID info.guid
  let e := (e.addString pidTopicName info.topicName).addString pidTypeName typeName
  let e := e.addLocator pidDefaultUnicastLocator (locatorFromUDP ipv4zero p.dataSockPort)
  let e := info.partitions.foldl (fun e part => e.addString pidPartition part) e
  let e :=
    match info.contentFilter with
    | none => e
    | some cf =>
      cf.params.foldl (fun e v => e.addString pidContentFilterParam v)
        (e.addString pidContentFilterExpr cf.text)
  if info.isWriter then addWriterQoS info e else e

def buildEndpointData (p : ParticipantConfig) (info : EndpointInfo) : Bytes :=
  match p.endpointPlugin with
  | none => (p.endpointParams info).finish
  | some ep =>
    ((p.endpointParams info).addParam pidEndpointToken
      (ep.signEndpoint p.guidPrefix info.topicName)).finish

end ParticipantConfig

namespace Participant

def sendToPeer (msg : Bytes) (peer : ParticipantProxy) : List Effect :=
  match peer.metatrafficUnicast.udpAddr with
  | none => []
  | some dst => [.unicast dst peer.guid.guidPrefix (.message msg)]

def broadcast (p : Participant) (msg : Bytes) : Option ParticipantProxy → List Effect
  | some peer => sendToPeer msg peer
  | none => p.spdp.peers.items.flatMap (sendToPeer msg)

def announce (writerEID readerEID : EntityId) (p : Participant) (info : EndpointInfo)
    (proxy : Option ParticipantProxy) : Participant × List Effect :=
  let seq := p.seqCounter + 1
  let submsg := marshalDataSubmessage writerEID readerEID ⟨0, seq⟩
    (p.config.buildEndpointData info)
  ({ p with seqCounter := seq }, p.broadcast (wrapInRTPSMessage p.guidPrefix submsg) proxy)

def announceWriter : Participant → EndpointInfo → Option ParticipantProxy →
    Participant × List Effect :=
  announce entityIdSEDPPubWriter entityIdSEDPPubReader

def announceReader : Participant → EndpointInfo → Option ParticipantProxy →
    Participant × List Effect :=
  announce entityIdSEDPSubWriter entityIdSEDPSubReader

/-- A new peer is told of all local endpoints. The source numbers announcements by one counter of
the process. -/
def onNewPeer (p : Participant) (proxy : ParticipantProxy) : Participant × List Effect :=
  let writers := Run.run (fun q info => announceWriter q info (some proxy)) p
    p.sedp.localWriters.items
  let readers := Run.run (fun q info => announceReader q info (some proxy)) writers.1
    p.sedp.localReaders.items
  (readers.1, writers.2 ++ readers.2)

end Participant

/-- An announcement is a parameter list. Later parameters overwrite earlier ones, and the identifier
it is stored under is the last one it carries; only without any does it come from the message header
(`guid_foldl_read`). -/
structure EndpointAnnounce where
  info : EndpointInfo
  dataLocator : Locator
  endpointTag : Bytes
  cfExpr : Str
  cfParams : List Str

namespace EndpointAnnounce

def start (remotePrefix : GuidPrefix) (isWriter : Bool) : EndpointAnnounce :=
  { info := { guid := ⟨remotePrefix, FixedBytes.copy 4 []⟩, isWriter := isWriter }
    dataLocator := zeroLocator
    endpointTag := []
    cfExpr := []
    cfParams := [] }

def guid (a : EndpointAnnounce) : GUID := a.info.guid

def read (src : Option UDPAddr) (a : EndpointAnnounce) (p : Param) : EndpointAnnounce :=
  if p.pid = pidEndpointGUID then
    (decodeGUID p.value).elim a fun g => { a with info.guid := g }
  else if p.pid = pidTopicName then
    (decodeString p.value).elim a fun t => { a with info.topicName := t }
  else if p.pid = pidTypeName then
    (decodeString p.value).elim a fun t => { a with info.typeName := t }
  else if p.pid = pidDefaultUnicastLocator then
    (unmarshalLocator p.value).elim a fun l => { a with dataLocator := l.fillIn src }
  else if p.pid = pidEndpointToken then { a with endpointTag := p.value }
  else if p.pid = pidPartition then
    (decodeString p.value).elim a fun part =>
      { a with info.partitions := a.info.partitions ++ [part] }
  else if p.pid = pidOwnership then
    (decodeUint32 p.value).elim a fun v =>
      if v ≠ 0 then { a with info.ownershipExclusive := true } else a
  else if p.pid = pidOwnershipStrength then
    (decodeUint32 p.value).elim a fun v => { a with info.ownershipStrength := v.toInt32 }
  else if p.pid = pidLivelinessLeaseDuration then
    (decodeInt64 p.value).elim a fun v => { a with info.livelinessLease := v.toInt }
  else if p.pid = pidContentFilterExpr then
    (decodeString p.value).elim a fun e => { a with cfExpr := e }
  else if p.pid = pidContentFilterParam then
    (decodeString p.value).elim a fun v => { a with cfParams := a.cfParams ++ [v] }
  else a

end EndpointAnnounce

def parseEndpointData (remotePrefix : GuidPrefix) (payload : Bytes) (isWriter : Bool)
    (src : Option UDPAddr) : Option EndpointAnnounce :=
  (paramsOf payload).map (List.foldl (EndpointAnnounce.read src) (.start remotePrefix isWriter))

/-! ## The tables of remote endpoints -/

def discoveryData (s : Submessage) : Option (EntityId × Bytes) :=
  if s.id ≠ submsgDATA then none
  else
    match parseDataSubmessage (flagEndianness ||| flagData) s.body with
    | none => none
    | some ds => ds.payload.map fun payload => (ds.writerEntityId, payload)

namespace Participant

/-- The local readers of the very topic that share a partition. -/
def matchedEIDs (p : Participant) (info : EndpointInfo) : List EntityId :=
  (p.sedp.localReaders.items.filter fun lr =>
    lr.topicName = info.topicName && partitionsMatch lr.partitions info.partitions).map
      fun lr => lr.guid.entity

def matchWriter (info : EndpointInfo) (now : Int) (r : Reader) : Reader :=
  let r := r.addSourceGUID info.guid
  if 0 < info.livelinessLease then r.registerWriterLease info.guid info.livelinessLease now else r

theorem eid_matchWriter (info : EndpointInfo) (now : Int) (r : Reader) :
    (matchWriter info now r).eid = r.eid := by
  unfold matchWriter
  split_ifs <;> rfl

def onRemoteWriter (p : Participant) (info : EndpointInfo) (dataLocator : Locator) (now : Int) :
    Participant :=
  let matched := p.matchedEIDs info
  { p with
    sedp := { p.sedp with
      remoteWriters := p.sedp.remoteWriters.insert info
      endpointMatches := p.sedp.endpointMatches + UInt64.ofNat matched.length }
    ownership :=
      if info.ownershipExclusive then
        p.ownership.set info.topicName
          ((p.ownershipStateFor info.topicName).register info.guid info.ownershipStrength)
      else p.ownership
    readers := p.readers.map
      (fun r => if r.eid ∈ matched then matchWriter info now r else r)
      fun r => by split_ifs <;> simp [eid_matchWriter]
    writerLocators :=
      if matched.isEmpty then p.writerLocators else p.writerLocators.set info.guid dataLocator }

def onRemoteReader (p : Participant) (info : EndpointInfo) (dataLocator : Locator) : Participant :=
  { p with
    sedp := { p.sedp with
      remoteReaders := p.sedp.remoteReaders.insert info
      remoteReaderLocs := p.sedp.remoteReaderLocs.set info.guid dataLocator } }

/-- Compile the content filter of an announcement. One that cannot be compiled is ignored. -/
def announcedFilter (p : ParticipantConfig) (a : EndpointAnnounce) : Option ContentFilterSpec :=
  if a.cfExpr = [] then none
  else (p.filterParse a.cfExpr a.cfParams).map fun expr => ⟨expr, a.cfExpr, a.cfParams⟩

/-- The tag of an announcement is valid for the sender, or tags are not checked. -/
def verifiesEndpoint (p : ParticipantConfig) (remotePrefix : GuidPrefix) (a : EndpointAnnounce) :
    Bool :=
  p.endpointPlugin.all fun ep => ep.verifyEndpoint remotePrefix a.info.topicName a.endpointTag

def handleEndpointAnnounce (p : Participant) (remotePrefix : GuidPrefix) (payload : Bytes)
    (isWriter : Bool) (src : Option UDPAddr) (now : Int) : Participant :=
  match parseEndpointData remotePrefix payload isWriter src with
  | none => p
  | some a =>
    if a.info.topicName = [] then p
    else if !verifiesEndpoint p.config remotePrefix a then p
    else
      let info := { a.info with contentFilter := announcedFilter p.config a }
      if isWriter then p.onRemoteWriter info a.dataLocator now
      else p.onRemoteReader info a.dataLocator

def sedpSubmessage (sender : GuidPrefix) (src : Option UDPAddr) (now : Int) (p : Participant)
    (s : Submessage) : Participant :=
  match discoveryData s with
  | none => p
  | some (writer, payload) =>
    if writer = entityIdSEDPPubWriter then p.handleEndpointAnnounce sender payload true src now
    else if writer = entityIdSEDPSubWriter then
      p.handleEndpointAnnounce sender payload false src now
    else p

def sedpHandlePacket (p : Participant) (pkt : Packet) : Participant × List Effect :=
  match submessagesOf p.guidPrefix pkt.data with
  | none => (p, [])
  | some (sender, subs) =>
    Run.run (fun q s => (sedpSubmessage sender pkt.src pkt.now q s, [])) p subs

/-- Forget the endpoints of an evicted participant. Its exclusive writers step down. -/
def onPeerEvicted (p : Participant) (evicted : GuidPrefix) : Participant :=
  { p with
    ownership := p.sedp.remoteWriters.items.foldl
      (fun (o : Table Str OwnershipState) info =>
        if info.guid.guidPrefix = evicted ∧ info.ownershipExclusive then
          o.set info.topicName (((o info.topicName).getD .new).unregister info.guid)
        else o) p.ownership
    sedp := { p.sedp with
      remoteWriters := p.sedp.remoteWriters.filter fun info => info.guid.guidPrefix ≠ evicted
      remoteReaders := p.sedp.remoteReaders.filter fun info => info.guid.guidPrefix ≠ evicted
      remoteReaderLocs := fun g =>
        if g.guidPrefix = evicted ∧ (p.sedp.remoteReaders.get? g).isSome then none
        else p.sedp.remoteReaderLocs g }
    writerLocators := fun g => if g.guidPrefix = evicted then none else p.writerLocators g }

end Participant

def lastGUID (pid : UInt16) (ps : List Param) : Option GUID :=
  (ps.filterMap fun p => if p.pid = pid then decodeGUID p.value else none).getLast?

theorem foldl_lastGUID {α : Type*} (guid : α → GUID) (pid : UInt16) (step : α → Param → α)
    (hstep : ∀ a p, guid (step a p) =
      ((if p.pid = pid then decodeGUID p.value else none).getD (guid a)))
    (ps : List Param) (a : α) : guid (ps.foldl step a) = (lastGUID pid ps).getD (guid a) := by
  induction ps generalizing a with
  | nil => rfl
  | cons p ps ih =>
    rw [List.foldl_cons, ih, hstep, lastGUID, lastGUID, List.filterMap_cons]
    cases (if p.pid = pid then decodeGUID p.value else none) with
    | none => rfl
    | some g => rw [List.getLast?_cons]; rfl

theorem keep_ite {α β : Type*} {f : α → β} {c : β} {q : Prop} [Decidable q] {x y : α}
    (hx : f x = c) (hy : f y = c) : f (if q then x else y) = c := by
  by_cases hq : q
  · rw [if_pos hq, hx]
  · rw [if_neg hq, hy]

theorem keep_elim {α β γ : Type*} {f : α → β} {o : Option γ} {a : α} {k : γ → α}
    (h : ∀ v, f (k v) = f a) : f (o.elim a k) = f a := by
  cases o with
  | none => rfl
  | some v => exact h v

namespace EndpointAnnounce

theorem guid_read (src : Option UDPAddr) (a : EndpointAnnounce) (p : Param) : (a.read src p).guid =
      (if p.pid = pidEndpointGUID then decodeGUID p.value else none).getD a.guid := by
  unfold read
  by_cases hguid : p.pid = pidEndpointGUID
  · rw [if_pos hguid, if_pos hguid]
    cases decodeGUID p.value <;> rfl
  · rw [if_neg hguid, if_neg hguid, Option.getD_none]
    -- every other parameter leaves the identifier alone
    repeat' apply keep_ite (f := guid)
    all_goals first
      | rfl
      | exact keep_elim (f := guid) fun _ => rfl
      | exact keep_elim (f := guid) fun _ => keep_ite (f := guid) rfl rfl

theorem guid_foldl_read (src : Option UDPAddr) (ps : List Param) (a : EndpointAnnounce) :
    (ps.foldl (read src) a).guid = (lastGUID pidEndpointGUID ps).getD a.guid :=
  foldl_lastGUID guid _ _ (guid_read src) ps a

end EndpointAnnounce

end GoDDS
