import GoDDS.Rtps.Sedp
import GoDDS.Rtps.Write

/-!
# The application's calls

The calls an application makes on a participant of the rtps backend and on its endpoints.
-/

namespace GoDDS

open ByteCodec Go Security

inductive CreateError where
  | topicEmpty
  | closed
  | accessDenied (topic : Str)
  | badFilter

structure Created where
  participant : Participant
  effects : List Effect
  result : Except CreateError EntityId

namespace Participant

/-! ## Publishers -/

def watchWriter (p : Participant) (w : WriterConfig) (now : Int) : Participant :=
  if 0 < w.qos.livelinessLeaseDuration then
    { p with
      readers := p.readers.map
        (fun r =>
          if r.topic = w.topic ∧ partitionsMatch w.qos.partition r.partitions = true then
            r.registerWriterLease ⟨p.guidPrefix, w.eid⟩ w.qos.livelinessLeaseDuration now
          else r)
        fun r => by split_ifs <;> rfl }
  else p

def registerOwnership (p : Participant) (w : WriterConfig) : Participant :=
  if w.qos.ownership = .exclusive then
    { p with
      ownership := p.ownership.set w.topic
        ((p.ownershipStateFor w.topic).register ⟨p.guidPrefix, w.eid⟩ w.qos.ownershipStrength) }
  else p

def unregisterOwnership (p : Participant) (w : WriterConfig) : Participant :=
  if w.qos.ownership = .exclusive then
    { p with
      ownership := p.ownership.set w.topic
        ((p.ownershipStateFor w.topic).unregister ⟨p.guidPrefix, w.eid⟩) }
  else p

def registerWriter (p : Participant) (w : WriterConfig) (typeName : Str) :
    Participant × List Effect :=
  let info : EndpointInfo :=
    { guid := ⟨p.guidPrefix, w.eid⟩, topicName := w.topic, typeName := typeName, isWriter := true,
      partitions := w.qos.partition, ownershipExclusive := w.qos.ownership = .exclusive,
      ownershipStrength := w.qos.ownershipStrength,
      livelinessLease := w.qos.livelinessLeaseDuration }
  announceWriter { p with sedp := { p.sedp with localWriters := p.sedp.localWriters.insert info } }
    info none

/-- The next writer. A stream configured for the topic comes before the transport priority; either
brings a socket. -/
def writerConfig (p : Participant) (topic : Str) (qos : QoS) : WriterConfig :=
  let stream := p.tsnConfig.bind fun cfg => cfg topic
  { topic := topic, eid := entityIdForWriter (p.entityCounter + 1), qos := qos, tsnStream := stream,
    tsnSock := stream.isSome || 0 < qos.transportPriority }

def addWriter (p : Participant) (w : WriterConfig) (typeName : Str) (now : Int) :
    Participant × List Effect :=
  let p := { p with entityCounter := p.entityCounter + 1 }
  (((p.registerOwnership w).watchWriter w now).setWriter (Writer.new w)).registerWriter w typeName

def newPublisherWithType (p : Participant) (topic typeName : Str) (qos : QoS) (now : Int) :
    Created :=
  if topic = [] then ⟨p, [], .error .topicEmpty⟩
  else if p.closed then ⟨p, [], .error .closed⟩
  else if p.accessControl.any fun ac => !ac.canWrite topic then
    ⟨p, [], .error (.accessDenied topic)⟩
  else
    let added := p.addWriter (p.writerConfig topic qos) typeName now
    ⟨added.1, added.2, .ok (p.writerConfig topic qos).eid⟩

def newPublisher (p : Participant) (topic : Str) (qos : QoS) (now : Int) : Created :=
  p.newPublisherWithType topic defaultTypeName qos now

def closeWriter (p : Participant) (eid : EntityId) : Participant :=
  match p.writers.get? eid with
  | none => p
  | some w =>
    if w.closed then p
    else (p.setWriter { w with closed := true }).unregisterOwnership w.config

/-! ## Subscribers -/

def readerConfig (p : Participant) (topic : Str) (qos : QoS) (cfg : SubscriberConfig)
    (cf : Option ContentFilterSpec) : ReaderConfig :=
  { topic := topic, eid := entityIdForReader (p.entityCounter + 1),
    reliable := qos.reliability = .reliable, filter := cfg.filter, contentFilter := cf,
    backPressure := cfg.backPressure, partitions := qos.partition,
    minSeparation := qos.minSeparation, livelinessLostCb := cfg.livelinessLostCallback,
    depth := cfg.chanDepth 64, depth_pos := cfg.chanDepth_64_pos }

def watchWriters (p : Participant) (r : Reader) (now : Int) : Reader :=
  if r.livelinessLostCb then
    p.writers.items.foldl
      (fun r w =>
        if w.topic = r.topic ∧ 0 < w.qos.livelinessLeaseDuration ∧
            partitionsMatch w.qos.partition r.partitions = true then
          r.registerWriterLease ⟨p.guidPrefix, w.eid⟩ w.qos.livelinessLeaseDuration now
        else r) r
  else r

def matchWriters (p : Participant) (r : Reader) (now : Int) : Reader :=
  p.sedp.remoteWriters.items.foldl
    (fun r rw =>
      if rw.topicName = r.topic ∧ partitionsMatch rw.partitions r.partitions = true then
        matchWriter rw now r
      else r) r

def maxPersisted : Nat := 64 * 1024 * 1024

/-- Read the file of a topic. The length field of a file has 32 bits. -/
def persistLoad (p : Participant) (topic : Str) : Option File :=
  if p.persistDir = [] then none
  else
    (p.files (persistName topic)).bind fun f =>
      let length := f.payload.length % 2 ^ 32
      if length > maxPersisted then none else some { f with payload := f.payload.take length }

/-- The sample for late joiners of a topic: the one in memory, or the one in the topic's file. -/
def keptFor (p : Participant) (topic : Str) : Option Kept :=
  match p.lastSample topic with
  | some kept => some kept
  | none =>
    (p.persistLoad topic).map fun f =>
      { sample :=
          { topic := topic, payload := f.payload, timestamp := zeroTime, sequenceNumber := 0,
            writerGUID := zeroGUID }
        origin := f.origin }

def passesOwnFilters (r : Reader) (s : Sample) : Bool :=
  (r.filter.all fun f => f s) && evalContentFilter r.contentFilter s.payload

def handOver (kept : Kept) (r : Reader) : Reader × List Effect :=
  if !passesOwnFilters r kept.sample then (r, [])
  else if r.ch.length < r.depth then
    ({ r with ch := r.ch ++ [kept.sample] }, [.lateJoin r.eid kept.origin kept.sample true])
  else (r, [.lateJoin r.eid kept.origin kept.sample false])

/-- What a new reader gets at its creation: with transient-local durability the kept sample. -/
def lateJoin (p : Participant) (qos : QoS) (r : Reader) : Reader × List Effect :=
  if qos.durability = .transientLocal then
    match p.keptFor r.topic with
    | none => (r, [])
    | some kept => handOver kept r
  else (r, [])

/-- A sample read back from a file is kept in memory from then on. -/
def recalled (p : Participant) (topic : Str) (qos : QoS) : Table Str Kept :=
  if qos.durability = .transientLocal then
    match p.keptFor topic with
    | none => p.lastSample
    | some kept => p.lastSample.set topic kept
  else p.lastSample

def newSubscriberLocked (p : Participant) (topic typeName : Str) (qos : QoS)
    (cfg : SubscriberConfig) (cf : Option ContentFilterSpec) (now : Int) : Created :=
  let r := Reader.new (p.readerConfig topic qos cfg cf)
  let joined := p.lateJoin qos (p.matchWriters (p.watchWriters r now) now)
  let info : EndpointInfo :=
    { guid := ⟨p.guidPrefix, r.eid⟩, topicName := topic, typeName := typeName,
      partitions := qos.partition, contentFilter := cf }
  let announced := announceReader
    { p with
      entityCounter := p.entityCounter + 1
      readers := p.readers.insert joined.1
      lastSample := p.recalled topic qos
      sedp := { p.sedp with localReaders := p.sedp.localReaders.insert info } } info none
  ⟨announced.1, announced.2 ++ joined.2, .ok r.eid⟩

def refuseSubscriber (p : Participant) (topic : Str) : Option CreateError :=
  if p.closed then some .closed
  else if p.accessControl.any fun ac => !ac.canRead topic then some (.accessDenied topic)
  else none

def newSubscriberWithType (p : Participant) (topic typeName : Str) (qos : QoS)
    (cfg : SubscriberConfig) (now : Int) : Created :=
  if topic = [] then ⟨p, [], .error .topicEmpty⟩
  else
    match p.refuseSubscriber topic with
    | some e => ⟨p, [], .error e⟩
    | none => p.newSubscriberLocked topic typeName qos cfg none now

def newSubscriber (p : Participant) (topic : Str) (qos : QoS) (cfg : SubscriberConfig) (now : Int) :
    Created :=
  p.newSubscriberWithType topic defaultTypeName qos cfg now

def newFilteredSubscriber (p : Participant) (topic expr : Str) (params : List Str) (qos : QoS)
    (cfg : SubscriberConfig) (now : Int) : Created :=
  if topic = [] then ⟨p, [], .error .topicEmpty⟩
  else
    match p.filterParse expr params with
    | none => ⟨p, [], .error .badFilter⟩
    | some e =>
      match p.refuseSubscriber topic with
      | some err => ⟨p, [], .error err⟩
      | none => p.newSubscriberLocked topic defaultTypeName qos cfg (some ⟨e, expr, params⟩) now

def unsubscribe (p : Participant) (eid : EntityId) : Participant :=
  { p with readers := p.readers.erase eid }

def tryRead (p : Participant) (eid : EntityId) : Participant :=
  { p with readers := p.readers.modify eid (fun r => { r with ch := r.ch.tail }) fun _ => rfl }

def close (p : Participant) : Participant :=
  if p.closed then p
  else (p.writers.items.map fun w => w.eid).foldl closeWriter { p with closed := true }

/-! ## Liveliness -/

/-- A tick of a writer's liveliness timer: a heartbeat, and a touch to the readers of its topic and
partitions. -/
def assertLiveliness (p : Participant) (eid : EntityId) (now : Int) : Participant × List Effect :=
  match p.writers.get? eid with
  | none => (p, [])
  | some w =>
    if w.closed then (p, [])
    else
      let hb : Heartbeat :=
        { readerEntityId := entityIdUnknown, writerEntityId := eid, firstSN := ⟨0, 0⟩,
          lastSN := ⟨0, 0⟩, count := (w.livelinessSeq + 1).toInt32, liveliness := true }
      let p := p.setWriter { w with livelinessSeq := w.livelinessSeq + 1 }
      ({ p with
          readers := p.readers.map
            (fun r =>
              if r.topic = w.topic ∧ partitionsMatch w.qos.partition r.partitions = true then
                r.touchLiveliness ⟨p.guidPrefix, eid⟩ now
              else r)
            fun r => by
              split_ifs
              · exact (Reader.sameMatch_touchLiveliness r _ _).eid
              · rfl },
        sendTo (p.matchedReaderLocators w.topic w.qos.partition) (.heartbeat hb))

end Participant

namespace Reader

/-- Check the lease of one writer: lost when it has expired since the writer was last heard of,
reported once. -/
def checkLease (r : Reader) (g : GUID) (now : Int) : Reader × Bool :=
  match r.writerLease g with
  | none => (r, false)
  | some lease =>
    if r.livelinessFired g = some true then (r, false)
    else if now - (r.lastSeenAlive g).getD zeroTime > lease then
      ({ r with livelinessFired := r.livelinessFired.set g true }, true)
    else (r, false)

theorem sameMatch_checkLease (r : Reader) (g : GUID) (now : Int) :
    SameMatch r (r.checkLease g now).1 := by
  unfold checkLease
  split
  · exact SameMatch.refl r
  · split_ifs
    · exact SameMatch.refl r
    · exact ⟨rfl, rfl, rfl, rfl⟩
    · exact SameMatch.refl r

def checkLeases (r : Reader) (now : Int) : List GUID → Reader × List GUID
  | [] => (r, [])
  | g :: gs =>
    let rest := (r.checkLease g now).1.checkLeases now gs
    (rest.1, if (r.checkLease g now).2 then g :: rest.2 else rest.2)

theorem sameMatch_checkLeases (r : Reader) (now : Int) (gs : List GUID) :
    SameMatch r (r.checkLeases now gs).1 := by
  induction gs generalizing r with
  | nil => exact SameMatch.refl r
  | cons g gs ih => exact (sameMatch_checkLease r g now).trans (ih _)

end Reader

namespace Participant

/-- A tick of a reader's liveliness monitor; `order` is that of the scan of the map. -/
def checkLiveliness (p : Participant) (eid : EntityId) (order : List GUID) (now : Int) :
    Participant × List Effect :=
  match p.readers.get? eid with
  | none => (p, [])
  | some r =>
    if !r.livelinessLostCb then (p, [])
    else
      ({ p with
          readers := p.readers.modify eid (fun r => (r.checkLeases now order).1)
            fun r => (Reader.sameMatch_checkLeases r now order).eid },
        (r.checkLeases now order).2.map (Effect.livelinessLost eid))

inductive Call where
  | newPublisher (topic typeName : Str) (qos : QoS) (now : Int)
  | newSubscriber (topic typeName : Str) (qos : QoS) (cfg : SubscriberConfig) (now : Int)
  | newFilteredSubscriber (topic expr : Str) (params : List Str) (qos : QoS)
      (cfg : SubscriberConfig) (now : Int)
  | write (eid : EntityId) (payload rnd : Bytes) (now : Int)
  | tryRead (eid : EntityId)
  | closeWriter (eid : EntityId)
  | unsubscribe (eid : EntityId)
  | close
  | heartbeatTick (eid : EntityId)
  | assertLiveliness (eid : EntityId) (now : Int)
  | checkLiveliness (eid : EntityId) (order : List GUID) (now : Int)

def afterCreation (c : Created) : Participant × List Effect := (c.participant, c.effects)

def call (p : Participant) : Call → Participant × List Effect
  | .newPublisher topic typeName qos now =>
    afterCreation (p.newPublisherWithType topic typeName qos now)
  | .newSubscriber topic typeName qos cfg now =>
    afterCreation (p.newSubscriberWithType topic typeName qos cfg now)
  | .newFilteredSubscriber topic expr params qos cfg now =>
    afterCreation (p.newFilteredSubscriber topic expr params qos cfg now)
  | .write eid payload rnd now => p.writeBy eid payload rnd now
  | .tryRead eid => (p.tryRead eid, [])
  | .closeWriter eid => (p.closeWriter eid, [])
  | .unsubscribe eid => (p.unsubscribe eid, [])
  | .close => (p.close, [])
  | .heartbeatTick eid => p.heartbeatTick eid
  | .assertLiveliness eid now => p.assertLiveliness eid now
  | .checkLiveliness eid order now => p.checkLiveliness eid order now

/-- The delivery behind an effect, if it brings a sample of this participant to one of its
readers. -/
def deliveryOf (p : Participant) : Effect → Option Delivery
  | .dispatch reader source _ _ true =>
    if source.guidPrefix = p.guidPrefix then
      match p.writers.get? source.entity, p.readers.get? reader with
      | some w, some r => some ⟨p.publication w, r.topic, r.partitions⟩
      | _, _ => none
    else none
  | .lateJoin reader origin _ true =>
    (p.readers.get? reader).map fun r => ⟨origin, r.topic, r.partitions⟩
  | _ => none

/-- The participant as its own readers see it: a call, and the samples that reach readers in it,
each with the write it comes from. -/
def serve (p : Participant) (c : Call) : Participant × List Delivery :=
  ((p.call c).1, (p.call c).2.filterMap (p.call c).1.deliveryOf)

end Participant

end GoDDS
