import Mathlib.Data.Finset.Dedup
import GoDDS.Policy

/-!
# The mock backend

The in-process backend of `mock.go` and `qos_enforce.go`.
-/

namespace GoDDS.Mock

open ByteCodec Go

inductive Error where
  | domainOutOfRange
  | topicEmpty
  | closed
  | badFilter
  | payloadTooLarge (got : Nat) (limit : Int)

def wordBytes (n : UInt64) : Bytes :=
  (List.range 8).map fun i => (n >>> UInt64.ofNat (8 * i)).toUInt8

def newMockGUID (n : UInt64) (now : Int) : GUID :=
  let g := wordBytes n ++ wordBytes (UInt64.ofInt now)
  ⟨FixedBytes.copy 12 g, FixedBytes.copy 4 (g.drop 12)⟩

/-! ## Subscriptions -/

/-- What a subscription is created with. The id stands for the identity of its channel. -/
structure SubscriptionConfig where
  id : Nat
  topic : Str
  filter : Option (Sample → Bool)
  contentFilter : Option (Bytes → Bool)
  backPressure : BackPressure
  partitions : List Str
  minSeparation : Int
  depth : Nat
  depth_pos : 0 < depth

structure Subscription extends config : SubscriptionConfig where
  ch : List Sample
  tbf : Table GUID Int

namespace Subscription

def new (cfg : SubscriptionConfig) : Subscription :=
  { config := cfg, ch := [], tbf := Table.empty }

def passesFilters (s : SubscriptionConfig) (sample : Sample) : Bool :=
  (s.filter.all fun f => f sample) && s.contentFilter.all fun e => e sample.payload

/-- The minimum separation from the last sample of the writer has passed; if so it starts again. -/
def passes (s : Subscription) (writer : GUID) (now : Int) : Subscription × Bool :=
  if s.minSeparation ≤ 0 then (s, true)
  else if (s.tbf writer).any fun last => now - last < s.minSeparation then (s, false)
  else ({ s with tbf := s.tbf.set writer now }, true)

/-- Put a sample into the channel under the back-pressure policy, if it goes in. Waiting is not
modelled. -/
def deliver (s : Subscription) (sample : Sample) : Subscription × Bool :=
  match s.backPressure with
  | .dropOldest =>
    if s.ch.length < s.depth then ({ s with ch := s.ch ++ [sample] }, true)
    else if s.ch.tail.length < s.depth then ({ s with ch := s.ch.tail ++ [sample] }, true)
    else ({ s with ch := s.ch.tail }, false)
  | .block => ({ s with ch := s.ch ++ [sample] }, true)
  | .dropNewest =>
    if s.ch.length < s.depth then ({ s with ch := s.ch ++ [sample] }, true) else (s, false)

def offer (s : Subscription) (partitions : List Str) (sample : Sample) (now : Int) :
    Subscription × Bool :=
  if !partitionsMatch partitions s.partitions then (s, false)
  else if !passesFilters s.config sample then (s, false)
  else
    let passed := s.passes sample.writerGUID now
    if !passed.2 then (passed.1, false) else passed.1.deliver sample

theorem passes_cfg (s : Subscription) (writer : GUID) (now : Int) :
    (s.passes writer now).1.config = s.config := by
  unfold passes
  split_ifs <;> rfl

theorem deliver_cfg (s : Subscription) (sample : Sample) :
    (s.deliver sample).1.config = s.config := by
  unfold deliver
  split
  · split_ifs <;> rfl
  · rfl
  · split_ifs <;> rfl

theorem offer_cfg (s : Subscription) (partitions : List Str) (sample : Sample) (now : Int) :
    (s.offer partitions sample now).1.config = s.config := by
  unfold offer
  dsimp only
  split_ifs
  · rfl
  · rfl
  · exact passes_cfg s _ now
  · exact (deliver_cfg _ sample).trans (passes_cfg s _ now)

end Subscription

/-- The leases of a topic's writers, when they were last heard of, whose silence was reported, and
the subscribers to tell. -/
structure TopicLiveliness where
  lease : Table GUID Int
  lastSeen : Table GUID Int
  fired : Table GUID Bool
  callbacks : List Nat

namespace TopicLiveliness

def new : TopicLiveliness := ⟨Table.empty, Table.empty, Table.empty, []⟩

def registerWriter (t : TopicLiveliness) (g : GUID) (lease now : Int) : TopicLiveliness :=
  { t with lease := t.lease.set g lease, lastSeen := t.lastSeen.set g now,
           fired := t.fired.set g false }

def unregisterWriter (t : TopicLiveliness) (g : GUID) : TopicLiveliness :=
  { t with lease := t.lease.erase g, lastSeen := t.lastSeen.erase g, fired := t.fired.erase g }

def touch (t : TopicLiveliness) (g : GUID) (now : Int) : TopicLiveliness :=
  match t.lease g with
  | none => t
  | some _ => { t with lastSeen := t.lastSeen.set g now, fired := t.fired.set g false }

def addCallback (t : TopicLiveliness) (sub : Nat) : TopicLiveliness :=
  { t with callbacks := sub :: t.callbacks.filter fun s => s ≠ sub }

def removeCallback (t : TopicLiveliness) (sub : Nat) : TopicLiveliness :=
  { t with callbacks := t.callbacks.filter fun s => s ≠ sub }

def checkLease (t : TopicLiveliness) (g : GUID) (now : Int) : TopicLiveliness × Bool :=
  match t.lease g with
  | none => (t, false)
  | some lease =>
    if t.fired g = some true then (t, false)
    else if now - (t.lastSeen g).getD zeroTime > lease then
      ({ t with fired := t.fired.set g true }, true)
    else (t, false)

def checkLeases (t : TopicLiveliness) (now : Int) : List GUID → TopicLiveliness × List GUID
  | [] => (t, [])
  | g :: gs =>
    let rest := (t.checkLease g now).1.checkLeases now gs
    (rest.1, if (t.checkLease g now).2 then g :: rest.2 else rest.2)

end TopicLiveliness

/-! ## The broker -/

inductive Output where
  | delivered (sub : Nat) (d : Delivery) (sample : Sample)
  | lost (sub : Nat) (writer : GUID)
  deriving DecidableEq

/-- Subscriptions are a list, whose order is that of the source's maps; a channel is the list of its
samples. -/
structure Broker where
  subs : Registry fun s : Subscription => s.id
  lastSample : Table Str Kept
  ownership : Table Str OwnershipState
  topicLiveliness : Table Str TopicLiveliness

namespace Broker

def ownershipStateFor (b : Broker) (topic : Str) : OwnershipState :=
  (b.ownership topic).getD OwnershipState.new

def ownershipAllows (b : Broker) (topic : Str) (g : GUID) : Bool :=
  match b.ownership topic with
  | none => true
  | some o => o.allows g

def livelinessStateFor (b : Broker) (topic : Str) : TopicLiveliness :=
  (b.topicLiveliness topic).getD TopicLiveliness.new

def updateLiveliness (b : Broker) (topic : Str) (f : TopicLiveliness → TopicLiveliness) : Broker :=
  { b with topicLiveliness := b.topicLiveliness.set topic (f (b.livelinessStateFor topic)) }

def hears (s : SubscriptionConfig) (topic : Str) : Bool :=
  s.topic = topic || topicMatches s.topic topic

def touchWriter (b : Broker) (topic : Str) (qos : QoS) (g : GUID) (now : Int) : Broker :=
  if 0 < qos.livelinessLeaseDuration then b.updateLiveliness topic fun t => t.touch g now else b

/-- A publisher with transient-local durability leaves its last sample for late joiners, before the
arbitration is asked. -/
def keepSample (b : Broker) (qos : QoS) (sample : Sample) (origin : Publication) : Broker :=
  if qos.durability = .transientLocal then
    { b with lastSample := b.lastSample.set sample.topic ⟨sample, origin⟩ }
  else b

def offerAll (b : Broker) (partitions : List Str) (sample : Sample) (origin : Publication)
    (now : Int) : Broker × List Output :=
  ({ b with
      subs := b.subs.map
        (fun s =>
          if hears s.config sample.topic then (s.offer partitions sample now).1
          else s)
        fun s => by
          split_ifs
          · exact congrArg SubscriptionConfig.id (s.offer_cfg partitions sample now)
          · rfl },
    b.subs.items.filterMap fun s =>
      if hears s.config sample.topic && (s.offer partitions sample now).2 then
        some (.delivered s.id ⟨origin, s.topic, s.partitions⟩ sample)
      else none)

/-- A write goes to the subscriptions of its topic and of the patterns that match it, past the
ownership arbitration of its topic, the partitions, the filters and the minimum separation. -/
def publish (b : Broker) (qos : QoS) (sample : Sample) (origin : Publication) (now : Int) :
    Broker × List Output :=
  let b := (b.touchWriter sample.topic qos sample.writerGUID now).keepSample qos sample origin
  if !b.ownershipAllows sample.topic sample.writerGUID then (b, [])
  else b.offerAll qos.partition sample origin now

def subscriptionConfig (id : Nat) (topic : Str) (qos : QoS) (cfg : SubscriberConfig)
    (cf : Option (Bytes → Bool)) : SubscriptionConfig :=
  { id := id, topic := topic, filter := cfg.filter, contentFilter := cf,
    backPressure := cfg.backPressure, partitions := qos.partition,
    minSeparation := qos.minSeparation, depth := cfg.chanDepth 64,
    depth_pos := cfg.chanDepth_64_pos }

def lastFor (b : Broker) (topic : Str) (qos : QoS) : Option Kept :=
  if qos.durability = .transientLocal then b.lastSample topic else none

def handOver (last : Option Kept) (s : Subscription) : Subscription × List Output :=
  match last with
  | none => (s, [])
  | some kept =>
    if !Subscription.passesFilters s.config kept.sample then (s, [])
    else if s.ch.length < s.depth then
      ({ s with ch := s.ch ++ [kept.sample] },
        [.delivered s.id ⟨kept.origin, s.topic, s.partitions⟩ kept.sample])
    else (s, [])

def subscribe (b : Broker) (s : SubscriptionConfig) (qos : QoS) : Broker × List Output :=
  let handed := handOver (b.lastFor s.topic qos) (Subscription.new s)
  ({ b with subs := b.subs.insert handed.1 }, handed.2)

def removeSubscription (b : Broker) (id : Nat) : Broker := { b with subs := b.subs.erase id }

end Broker

structure PublisherConfig where
  guid : GUID
  topic : Str
  qos : QoS

structure Publisher extends config : PublisherConfig where
  closed : Bool
  seqNum : UInt64

def PublisherConfig.seen (pub : PublisherConfig) : GoDDS.Publisher :=
  { guid := pub.guid, topic := pub.topic, partitions := pub.qos.partition,
    exclusive := pub.qos.ownership = .exclusive, strength := pub.qos.ownershipStrength }

/-- The mock backend in one process: which participants are closed, and how many subscribers there
were. -/
structure Process extends Broker where
  filterParse : Str → List Str → Option (Bytes → Bool)
  guidCounter : UInt64
  participants : Table GUID Bool
  publishers : Registry fun pub : Publisher => pub.guid
  subscribers : Nat

namespace Process

def new (filterParse : Str → List Str → Option (Bytes → Bool)) : Process :=
  { subs := Registry.empty, lastSample := Table.empty, ownership := Table.empty,
    topicLiveliness := Table.empty, filterParse := filterParse, guidCounter := 0,
    participants := Table.empty, publishers := Registry.empty, subscribers := 0 }

def nextGUID (m : Process) (now : Int) : GUID := newMockGUID (m.guidCounter + 1) now

def takeGUID (m : Process) : Process := { m with guidCounter := m.guidCounter + 1 }

def newParticipant (m : Process) (domain : Int) (now : Int) : Process × Except Error GUID :=
  if domain < 0 ∨ domain > 232 then (m, .error .domainOutOfRange)
  else
    let g := m.nextGUID now
    ({ m.takeGUID with participants := m.participants.set g false }, .ok g)

/-! ### Publishers -/

def setPublisher (m : Process) (pub : Publisher) : Process :=
  { m with publishers := m.publishers.insert pub }

def registerOwnership (m : Process) (pub : PublisherConfig) : Process :=
  if pub.qos.ownership = .exclusive then
    { m with
      ownership := m.ownership.set pub.topic
        ((m.ownershipStateFor pub.topic).register pub.guid pub.qos.ownershipStrength) }
  else m

def unregisterOwnership (m : Process) (pub : PublisherConfig) : Process :=
  if pub.qos.ownership = .exclusive then
    { m with
      ownership := m.ownership.set pub.topic
        ((m.ownershipStateFor pub.topic).unregister pub.guid) }
  else m

def updateLease (m : Process) (pub : PublisherConfig) (f : TopicLiveliness → TopicLiveliness) :
    Process :=
  if 0 < pub.qos.livelinessLeaseDuration then
    { m with toBroker := m.toBroker.updateLiveliness pub.topic f }
  else m

def isOpen (m : Process) (participant : GUID) : Bool := m.participants participant = some false

def newPublisher (m : Process) (participant : GUID) (topic : Str) (qos : QoS) (now : Int) :
    Process × Except Error GUID :=
  if topic = [] then (m, .error .topicEmpty)
  else if !m.isOpen participant then (m, .error .closed)
  else
    let pub : PublisherConfig := ⟨m.nextGUID now, topic, qos⟩
    (((m.takeGUID.setPublisher ⟨pub, false, 0⟩).registerOwnership pub).updateLease pub fun t =>
        t.registerWriter pub.guid qos.livelinessLeaseDuration now,
      .ok pub.guid)

def openPublishers (m : Process) : Finset GoDDS.Publisher :=
  ((m.publishers.items.filter fun pub => !pub.closed).map fun pub => pub.seen).toFinset

def publication (m : Process) (pub : PublisherConfig) : Publication := ⟨pub.seen, m.openPublishers⟩

structure Written where
  process : Process
  outputs : List Output
  error : Option Error

def write (m : Process) (pub : Publisher) (payload : Bytes) (now : Int) : Written :=
  if pub.closed then ⟨m, [], some .closed⟩
  else if 0 < pub.qos.maxSampleSize ∧ pub.qos.maxSampleSize < payload.length then
    ⟨m, [], some (.payloadTooLarge payload.length pub.qos.maxSampleSize)⟩
  else
    let pub := { pub with seqNum := pub.seqNum + 1 }
    let m := m.setPublisher pub
    let sample : Sample :=
      { topic := pub.topic, payload := payload, timestamp := now, sequenceNumber := pub.seqNum,
        writerGUID := pub.guid }
    let published :=
      m.toBroker.publish pub.qos sample (m.publication pub.config) now
    ⟨{ m with toBroker := published.1 }, published.2, none⟩

def closePublisher (m : Process) (guid : GUID) : Process :=
  match m.publishers.get? guid with
  | none => m
  | some pub =>
    ((m.updateLease pub.config fun t => t.unregisterWriter pub.guid).unregisterOwnership
      pub.config).setPublisher { pub with closed := true }

/-- A tick of a publisher's liveliness timer, which runs while an automatic publisher with a lease
is open. -/
def assertLiveliness (m : Process) (guid : GUID) (now : Int) : Process :=
  match m.publishers.get? guid with
  | none => m
  | some pub =>
    if pub.closed then m
    else if pub.qos.liveliness = .automatic then
      m.updateLease pub.config fun t => t.touch pub.guid now
    else m

/-! ### Subscribers -/

def newSubscriberLocked (m : Process) (topic : Str) (qos : QoS) (cfg : SubscriberConfig)
    (cf : Option (Bytes → Bool)) : Process × List Output :=
  let s := Broker.subscriptionConfig (m.subscribers + 1) topic qos cfg cf
  let subscribed := m.toBroker.subscribe s qos
  let b :=
    if cfg.livelinessLostCallback then
      subscribed.1.updateLiveliness topic fun t => t.addCallback s.id
    else subscribed.1
  ({ m with toBroker := b, subscribers := m.subscribers + 1 }, subscribed.2)

structure Subscribed where
  process : Process
  outputs : List Output
  result : Except Error Nat

def newSubscriber (m : Process) (participant : GUID) (topic : Str) (qos : QoS)
    (cfg : SubscriberConfig) : Subscribed :=
  if topic = [] then ⟨m, [], .error .topicEmpty⟩
  else if !m.isOpen participant then ⟨m, [], .error .closed⟩
  else
    let made := m.newSubscriberLocked topic qos cfg none
    ⟨made.1, made.2, .ok (m.subscribers + 1)⟩

def newFilteredSubscriber (m : Process) (participant : GUID) (topic expr : Str) (params : List Str)
    (qos : QoS) (cfg : SubscriberConfig) : Subscribed :=
  if topic = [] then ⟨m, [], .error .topicEmpty⟩
  else
    match m.filterParse expr params with
    | none => ⟨m, [], .error .badFilter⟩
    | some cf =>
      if !m.isOpen participant then ⟨m, [], .error .closed⟩
      else
        let made := m.newSubscriberLocked topic qos cfg (some cf)
        ⟨made.1, made.2, .ok (m.subscribers + 1)⟩

def unsubscribe (m : Process) (id : Nat) : Process :=
  match m.subs.get? id with
  | none => m
  | some s =>
    { m with
      toBroker := (m.toBroker.removeSubscription id).updateLiveliness s.topic fun t =>
        t.removeCallback id }

def tryRead (m : Process) (id : Nat) : Process :=
  { m with subs := m.subs.modify id (fun s => { s with ch := s.ch.tail }) fun _ => rfl }

def closeParticipant (m : Process) (participant : GUID) : Process :=
  match m.participants participant with
  | none => m
  | some _ => { m with participants := m.participants.set participant true }

/-- A scan of the leases of a topic, in the order of a map; subscribers that want to know are told
of each lost writer. -/
def check (m : Process) (topic : Str) (order : List GUID) (now : Int) : Process × List Output :=
  let t := m.livelinessStateFor topic
  let checked := t.checkLeases now order
  ({ m with toBroker := m.toBroker.updateLiveliness topic fun _ => checked.1 },
    checked.2.flatMap fun g => t.callbacks.map fun sub => .lost sub g)

/-- A call or a tick of a timer. `takeGUID` is a call on a participant with a broker of its own. -/
inductive Call where
  | takeGUID
  | newParticipant (domain : Int) (now : Int)
  | newPublisher (participant : GUID) (topic : Str) (qos : QoS) (now : Int)
  | newSubscriber (participant : GUID) (topic : Str) (qos : QoS) (cfg : SubscriberConfig)
  | newFilteredSubscriber (participant : GUID) (topic expr : Str) (params : List Str) (qos : QoS)
      (cfg : SubscriberConfig)
  | write (guid : GUID) (payload : Bytes) (now : Int)
  | tryRead (id : Nat)
  | closePublisher (guid : GUID)
  | unsubscribe (id : Nat)
  | closeParticipant (participant : GUID)
  | assertLiveliness (guid : GUID) (now : Int)
  | check (topic : Str) (order : List GUID) (now : Int)

def call (m : Process) : Call → Process × List Output
  | .takeGUID => (m.takeGUID, [])
  | .newParticipant domain now => ((m.newParticipant domain now).1, [])
  | .newPublisher participant topic qos now => ((m.newPublisher participant topic qos now).1, [])
  | .newSubscriber participant topic qos cfg =>
    let made := m.newSubscriber participant topic qos cfg
    (made.process, made.outputs)
  | .newFilteredSubscriber participant topic expr params qos cfg =>
    let made := m.newFilteredSubscriber participant topic expr params qos cfg
    (made.process, made.outputs)
  | .write guid payload now =>
    match m.publishers.get? guid with
    | none => (m, [])
    | some pub => ((m.write pub payload now).process, (m.write pub payload now).outputs)
  | .tryRead id => (m.tryRead id, [])
  | .closePublisher guid => (m.closePublisher guid, [])
  | .unsubscribe id => (m.unsubscribe id, [])
  | .closeParticipant participant => (m.closeParticipant participant, [])
  | .assertLiveliness guid now => (m.assertLiveliness guid now, [])
  | .check topic order now => m.check topic order now

def deliveryOf : Output → Option Delivery
  | .delivered _ d _ => some d
  | .lost _ _ => none

def serve (m : Process) (c : Call) : Process × List Delivery :=
  ((m.call c).1, (m.call c).2.filterMap deliveryOf)

end Process

end GoDDS.Mock
