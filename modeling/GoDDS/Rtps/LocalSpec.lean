import GoDDS.Rtps.Local

/-!
# What a call can do
-/

namespace GoDDS

open ByteCodec Go Security List Option Function Registry Reader ReaderConfig

variable {payload rnd : Bytes} {c : Call} {e : Effect} {now : Int} {p : Participant} {r : Reader}
  {topic : Str} {w : Writer}

namespace Participant

/-! ## The part of the state the policies look at -/

/-- The part of a participant's state that the policies look at: the settings of its endpoints and
whether its writers are open, the ownership arbitration, and the samples kept for late joiners. -/
structure View where
  closed : Bool
  entityCounter : UInt32
  writers : EntityId → Option (WriterConfig × Bool)
  readers : EntityId → Option ReaderConfig
  ownership : Table Str OwnershipState
  lastSample : Table Str Kept
  files : Table Str File

def writerView (w : Writer) : WriterConfig × Bool := (w.config, w.closed)

def view (p : Participant) : View :=
  { closed := p.closed
    entityCounter := p.entityCounter
    writers := fun eid => (p.writers.get? eid).map writerView
    readers := fun eid => (p.readers.get? eid).map Reader.config
    ownership := p.ownership
    lastSample := p.lastSample
    files := p.files }

theorem view_writers_iff {eid : EntityId} {w : WriterConfig} {closed : Bool} :
    p.view.writers eid = some (w, closed) ↔
      ∃ v, p.writers.get? eid = some v ∧ v.config = w ∧ v.closed = closed := by
  simp only [view, map_eq_some_iff, writerView, Prod.mk.injEq]

theorem mem_openPublishers {x : Publisher} :
    x ∈ p.openPublishers ↔ ∃ eid w, p.view.writers eid = some (w, false) ∧
      x = publisher p.config w := by
  simp only [openPublishers, List.mem_toFinset, List.mem_map, mem_filter, view_writers_iff]
  constructor
  · rintro ⟨v, ⟨hv, hopen⟩, rfl⟩
    exact ⟨v.eid, _, ⟨v, get?_eq_some.2 ⟨hv, rfl⟩, rfl, by simpa using hopen⟩, rfl⟩
  · rintro ⟨eid, w, ⟨v, hv, rfl, hopen⟩, rfl⟩
    exact ⟨v, ⟨(get?_eq_some.1 hv).1, by simp [hopen]⟩, rfl⟩

theorem publication_congr {q : Participant} (hcfg : q.config = p.config)
    (hview : q.view.writers = p.view.writers) {v : Writer}
    (hvw : v.config = w.config) : q.publication v = p.publication w := by
  unfold publication
  rw [hvw, hcfg]
  congr 1
  ext x
  rw [mem_openPublishers, mem_openPublishers, hview, hcfg]

theorem view_setWriter (w : Writer) : (p.setWriter w).view =
      { p.view with writers := update p.view.writers w.eid (some (writerView w)) } := by
  have hwriters : (p.setWriter w).view.writers =
      update p.view.writers w.eid (some (writerView w)) := by
    funext eid
    show ((p.setWriter w).writers.get? eid).map writerView = _
    rw [get?_setWriter, update_apply]
    split_ifs <;> rfl
  rw [← hwriters]
  rfl

theorem view_setWriter_same {v : Writer} (hget : p.writers.get? w.eid = some w)
    (hvw : writerView v = writerView w) : (p.setWriter v).view = p.view := by
  have heid : v.eid = w.eid := congrArg (fun x => x.1.eid) hvw
  have hsame : update p.view.writers v.eid (some (writerView v)) = p.view.writers := by
    rw [hvw, heid, update_eq_self_iff]
    show _ = (p.writers.get? w.eid).map writerView
    rw [hget]
    rfl
  rw [view_setWriter, hsame]

theorem view_mapReaders (p : Participant) {f : Reader → Reader} (hf : ∀ r, (f r).eid = r.eid)
    (hsame : ∀ r, (f r).config = r.config) :
    view { p with readers := p.readers.map f hf } = p.view := by
  have hreaders : (fun eid => ((p.readers.map f hf).get? eid).map Reader.config) =
      p.view.readers := by
    funext eid
    rw [get?_map, Option.map_map]
    exact congrArg (Option.map · (p.readers.get? eid)) (funext hsame)
  show View.mk _ _ _ _ _ _ _ = _
  rw [hreaders]
  rfl

/-! ## Writing -/

theorem writerView_keep (msgs : List Bytes) : writerView (w.keep msgs) = writerView w := by
  unfold Writer.keep
  split_ifs <;> rfl

theorem view_sendHeartbeat (hget : p.writers.get? w.eid = some w) :
    (p.sendHeartbeat w).1.view = p.view := by
  unfold sendHeartbeat
  cases hhb : w.heartbeat with
  | none => rfl
  | some r =>
    refine view_setWriter_same hget ?_
    obtain ⟨fl, -, rfl⟩ := map_eq_some_iff.1 hhb
    rfl

/-- The sample a write leaves for late joiners. -/
def keptSample (w : WriterConfig) (payload : Bytes) (now : Int) : Sample :=
  { topic := w.topic, payload := payload, timestamp := now, sequenceNumber := 0,
    writerGUID := zeroGUID }

/-- A write keeps its sample, and writes it to the file of its topic if there is a directory. -/
def View.afterWrite (v : View) (cfg : ParticipantConfig) (w : WriterConfig) (payload : Bytes)
    (now : Int) (origin : Publication) : View :=
  { v with
    lastSample := v.lastSample.set w.topic ⟨keptSample w payload now, origin⟩
    files :=
      if cfg.persistDir = [] then v.files else v.files.set (persistName w.topic) ⟨payload, origin⟩ }

theorem view_deliverLocally (w : Writer) (payload : Bytes) (now : Int) :
    (p.deliverLocally w payload now).1.view =
      p.view.afterWrite p.config w.config payload now (p.publication w) := by
  unfold deliverLocally persistFlush dispatchToReaders
  dsimp only
  split_ifs with hdir
  · refine (view_mapReaders _ _ fun r => (sameMatch_offer _ _ r).cfg).trans ?_
    unfold View.afterWrite
    rw [if_pos hdir]
    rfl
  · refine (view_mapReaders _ _ fun r => (sameMatch_offer _ _ r).cfg).trans ?_
    unfold View.afterWrite
    rw [if_neg hdir]
    rfl

theorem view_publish (hget : p.writers.get? w.eid = some w) (payload : Bytes) (now : Int)
    (msgs : List Bytes) : (p.publish w payload now msgs).1.view =
      p.view.afterWrite p.config w.config payload now (p.publication w) := by
  have hcfg := w.keep_config msgs
  have heid : (w.keep msgs).eid = w.eid := congrArg WriterConfig.eid hcfg
  have hview : (p.setWriter (w.keep msgs)).view = p.view :=
    view_setWriter_same hget (writerView_keep msgs)
  have hpub : (p.setWriter (w.keep msgs)).publication (w.keep msgs) = p.publication w :=
    publication_congr (p := p) (q := p.setWriter (w.keep msgs)) rfl (congrArg View.writers hview)
      hcfg
  have hdelivered : ((p.setWriter (w.keep msgs)).deliverLocally (w.keep msgs) payload now).1.view =
      p.view.afterWrite p.config w.config payload now (p.publication w) := by
    rw [view_deliverLocally, hview, hpub, hcfg]
    rfl
  unfold publish
  dsimp only
  split_ifs with hrel
  · refine (view_sendHeartbeat ?_).trans hdelivered
    rw [writers_deliverLocally, get?_setWriter, if_pos rfl]
  · exact hdelivered

/-- Reader `r` takes the samples of writer `w`, its filters, its channel and its clock apart. -/
@[mk_iff]
structure Admits (p : Participant) (w : WriterConfig) (r : ReaderConfig) : Prop where
  topic : w.topic = [] ∨ topicMatches r.topic w.topic = true
  partitions : partitionsMatch w.qos.partition r.partitions = true
  ownership : p.ownershipAllows r.topic ⟨p.guidPrefix, w.eid⟩ = true

instance (p : Participant) (w : WriterConfig) (r : ReaderConfig) : Decidable (p.Admits w r) :=
  decidable_of_iff _ (p.admits_iff w r).symm

theorem partitions_of_offer {d : Dispatch} (hlocal : d.source.guidPrefix = p.guidPrefix)
    (h : e ∈ (p.offer d r).2.effects) : partitionsMatch d.writerPartitions r.partitions := by
  have htouch := sameMatch_touchLiveliness r d.source d.now
  rw [← congrArg partitions htouch.cfg]
  by_contra hpart
  unfold offer at h
  dsimp only at h
  split_ifs at h with hfits hacc hskip hown htime hfilter
  all_goals try cases h
  exact hskip ⟨hlocal, by simpa using hpart⟩

theorem deliverLocally_effects_eq (p : Participant) (w : Writer) (payload : Bytes) (now : Int) :
    (p.deliverLocally w payload now).2 =
      p.readers.items.flatMap fun r => (p.offer (p.localDispatch w payload now) r).2.effects := by
  unfold deliverLocally persistFlush
  dsimp only
  split_ifs <;> rfl

theorem deliverLocally_effects (h : e ∈ (p.deliverLocally w payload now).2) :
    ∃ r ∈ p.readers.items, (∃ origin sample queued,
      e = .dispatch r.eid ⟨p.guidPrefix, w.eid⟩ origin sample queued) ∧
      p.Admits w.config r.config := by
  rw [deliverLocally_effects_eq] at h
  obtain ⟨r, hr, hoffer⟩ := mem_flatMap.1 h
  obtain ⟨⟨queued, heq⟩, -, hfits, -, hown⟩ := offer_effects hoffer
  exact ⟨r, hr, ⟨_, _, queued, heq⟩, Dispatch.topicFits_iff.1 hfits,
    partitions_of_offer rfl hoffer, hown⟩

/-! ## Messages -/

/-- The effects other participants see. -/
def sends : Effect → Bool
  | .unicast _ _ _ => true
  | .multicast _ _ => true
  | _ => false

theorem deliveryOf_of_sends (h : sends e) (p : Participant) : p.deliveryOf e = none := by
  cases e <;> first | rfl | cases h

theorem filterMap_of_sends {effs : List Effect} (h : ∀ e ∈ effs, sends e = true)
    (p : Participant) : effs.filterMap p.deliveryOf = [] :=
  filterMap_eq_nil_iff.2 fun e he => deliveryOf_of_sends (h e he) p

theorem sends_sendTo {locs : List ReaderLocator} {out : Outgoing} (h : e ∈ sendTo locs out) :
    sends e := by
  obtain ⟨lm, -, hlm⟩ := mem_filterMap.1 h
  obtain ⟨dst, -, rfl⟩ := map_eq_some_iff.1 hlm
  rfl

theorem sends_sendHeartbeat (h : e ∈ (p.sendHeartbeat w).2) : sends e := by
  rw [sendHeartbeat_effects] at h
  cases hhb : w.heartbeat with
  | none => simp [hhb] at h
  | some r =>
    rw [hhb] at h
    exact sends_sendTo h

theorem sends_sendSample {msgs : List Bytes} (h : e ∈ p.sendSample w payload msgs) : sends e := by
  unfold sendSample at h
  dsimp only at h
  split_ifs at h
  · obtain ⟨msg, -, rfl⟩ := mem_map.1 h
    rfl
  · obtain ⟨lm, -, hlm⟩ := mem_flatMap.1 h
    split_ifs at hlm
    · cases hlm
    · cases hdst : lm.loc.udpAddr with
      | none => simp [hdst] at hlm
      | some dst =>
        rw [hdst] at hlm
        obtain ⟨msg, -, rfl⟩ := mem_map.1 hlm
        rfl

theorem sends_sendToPeer {msg : Bytes} {peer : ParticipantProxy} (h : e ∈ sendToPeer msg peer) :
    sends e := by
  unfold sendToPeer at h
  cases hdst : peer.metatrafficUnicast.udpAddr with
  | none => simp [hdst] at h
  | some dst =>
    rw [hdst] at h
    obtain rfl := mem_singleton.1 h
    rfl

theorem sends_announce {w r : EntityId} {info : EndpointInfo} {proxy : Option ParticipantProxy}
    (h : e ∈ (announce w r p info proxy).2) : sends e := by
  cases proxy with
  | some peer => exact sends_sendToPeer h
  | none =>
    obtain ⟨peer, -, hpeer⟩ := mem_flatMap.1 h
    exact sends_sendToPeer hpeer

theorem filterMap_announceWriter (p q : Participant) (info : EndpointInfo) :
    (announceWriter p info none).2.filterMap q.deliveryOf = [] :=
  filterMap_of_sends (fun _ he => sends_announce he) q

theorem filterMap_announceReader (p q : Participant) (info : EndpointInfo) :
    (announceReader p info none).2.filterMap q.deliveryOf = [] :=
  filterMap_of_sends (fun _ he => sends_announce he) q

theorem view_registerWriter (w : WriterConfig) (typeName : Str) :
    (p.registerWriter w typeName).1.view = p.view := rfl

def View.addWriter (v : View) (cfg : ParticipantConfig) (w : WriterConfig) : View :=
  { v with
    entityCounter := v.entityCounter + 1
    writers := Function.update v.writers w.eid (some (w, false))
    ownership :=
      if w.qos.ownership = .exclusive then
        v.ownership.set w.topic (((v.ownership w.topic).getD OwnershipState.new).register
          ⟨cfg.guidPrefix, w.eid⟩ w.qos.ownershipStrength)
      else v.ownership }

def View.closeWriter (v : View) (cfg : ParticipantConfig) (w : WriterConfig) : View :=
  { v with
    writers := Function.update v.writers w.eid (some (w, true))
    ownership :=
      if w.qos.ownership = .exclusive then
        v.ownership.set w.topic
          (((v.ownership w.topic).getD OwnershipState.new).unregister ⟨cfg.guidPrefix, w.eid⟩)
      else v.ownership }

theorem view_addWriter (p : Participant) (w : WriterConfig) (typeName : Str) (now : Int) :
    (p.addWriter w typeName now).1.view = p.view.addWriter p.config w := by
  have hwatch : ∀ q : Participant, (q.watchWriter w now).view = q.view := fun q => by
    unfold watchWriter
    split_ifs
    · exact view_mapReaders q _ fun r => by split_ifs <;> rfl
    · rfl
  have hown : ∀ q : Participant, (q.registerOwnership w).view =
      { q.view with
        ownership :=
          if w.qos.ownership = .exclusive then
            q.view.ownership.set w.topic (((q.view.ownership w.topic).getD
              OwnershipState.new).register ⟨q.guidPrefix, w.eid⟩ w.qos.ownershipStrength)
          else q.view.ownership } := fun q => by
    unfold registerOwnership
    split_ifs <;> rfl
  unfold addWriter
  rw [view_registerWriter, view_setWriter, hwatch, hown]
  rfl

theorem view_closeWriter {eid : EntityId} (hget : p.writers.get? eid = some w)
    (hopen : w.closed = false) :
    (p.closeWriter eid).view = p.view.closeWriter p.config w.config := by
  unfold closeWriter
  rw [hget]
  dsimp only
  rw [if_neg (by simp [hopen])]
  have hown : ∀ q : Participant, (q.unregisterOwnership w.config).view =
      { q.view with
        ownership :=
          if w.qos.ownership = .exclusive then
            q.view.ownership.set w.topic (((q.view.ownership w.topic).getD
              OwnershipState.new).unregister ⟨q.guidPrefix, w.eid⟩)
          else q.view.ownership } := fun q => by
    unfold unregisterOwnership
    split_ifs <;> rfl
  rw [hown, view_setWriter]
  rfl

/-! ## Creating a subscriber -/

variable (p)

theorem watchWriters_same (r : Reader) (now : Int) :
    (p.watchWriters r now).config = r.config ∧
      (p.watchWriters r now).ch = r.ch := by
  unfold watchWriters
  split_ifs
  · refine foldlRecOn _ _
      (motive := fun x : Reader => x.config = r.config ∧ x.ch = r.ch) ⟨rfl, rfl⟩ ?_
    intro x hx w _
    split_ifs
    · exact hx
    · exact hx
  · exact ⟨rfl, rfl⟩

theorem matchWriters_same (r : Reader) (now : Int) :
    (p.matchWriters r now).config = r.config ∧
      (p.matchWriters r now).ch = r.ch := by
  unfold matchWriters
  refine foldlRecOn _ _
    (motive := fun x : Reader => x.config = r.config ∧ x.ch = r.ch) ⟨rfl, rfl⟩ ?_
  intro x hx info _
  unfold matchWriter
  split_ifs
  all_goals exact hx

theorem recalled_cases (topic : Str) (qos : QoS) :
    p.recalled topic qos = p.lastSample ∨ ∃ kept, p.keptFor topic = some kept ∧
      p.recalled topic qos = p.lastSample.set topic kept := by
  unfold recalled
  split_ifs
  · cases p.keptFor topic with
    | none => exact .inl rfl
    | some kept => exact .inr ⟨kept, rfl, rfl⟩
  · exact .inl rfl

variable {p}

/-- What a new reader is given. -/
def joinDeliveries (p : Participant) (qos : QoS) (r : ReaderConfig) : List Delivery :=
  if qos.durability = .transientLocal then
    match p.keptFor r.topic with
    | none => []
    | some kept =>
      if passesOwnFilters (Reader.new r) kept.sample then [⟨kept.origin, r.topic, r.partitions⟩]
      else []
  else []

theorem mem_joinDeliveries {qos : QoS} {r : ReaderConfig} {d : Delivery} :
    d ∈ p.joinDeliveries qos r ↔ qos.durability = .transientLocal ∧
      ∃ kept, p.keptFor r.topic = some kept ∧ passesOwnFilters (Reader.new r) kept.sample ∧
        d = ⟨kept.origin, r.topic, r.partitions⟩ := by
  unfold joinDeliveries
  by_cases hdur : qos.durability = .transientLocal
  · rw [if_pos hdur]
    cases p.keptFor r.topic with
    | none => simp
    | some kept =>
      by_cases hpass : passesOwnFilters (Reader.new r) kept.sample
      · simp [hdur, hpass]
      · simp [hpass]
  · simp [hdur]

def View.addReader (v : View) (r : ReaderConfig) (kept : Table Str Kept) : View :=
  { v with
    entityCounter := v.entityCounter + 1
    readers := Function.update v.readers r.eid (some r)
    lastSample := kept }

theorem lateJoin_config (p : Participant) (qos : QoS) (r : Reader) :
    (p.lateJoin qos r).1.config = r.config := by
  unfold lateJoin
  split_ifs
  · cases p.keptFor r.topic with
    | none => rfl
    | some kept =>
      show (handOver kept r).1.config = _
      unfold handOver
      split_ifs <;> rfl
  · rfl

theorem lateJoin_deliveries (p q : Participant) (qos : QoS) {r' : Reader} (hch : r.ch = [])
    (hget : q.readers.get? r.eid = some r') (hcfg : r'.config = r.config) :
    (p.lateJoin qos r).2.filterMap q.deliveryOf = p.joinDeliveries qos r.config := by
  have hpass : ∀ s, passesOwnFilters (Reader.new r.config) s = passesOwnFilters r s :=
    fun _ => rfl
  unfold lateJoin joinDeliveries
  split_ifs with hdur
  · cases p.keptFor r.topic with
    | none => rfl
    | some kept =>
      dsimp only
      unfold handOver
      rw [hpass]
      by_cases hf : passesOwnFilters r kept.sample
      · rw [if_neg (by simp [hf]), if_pos hf, if_pos (by rw [hch]; exact r.depth_pos)]
        simp [deliveryOf, hget, hcfg]
      · rw [if_pos (by simpa using hf), if_neg hf]
        rfl
  · rfl

theorem newSubscriberLocked_spec (p : Participant) (topic typeName : Str) (qos : QoS)
    (cfg : SubscriberConfig) (cf : Option ContentFilterSpec) (now : Int) :
    let made := p.newSubscriberLocked topic typeName qos cfg cf now
    let r := p.readerConfig topic qos cfg cf
    made.participant.view = p.view.addReader r (p.recalled topic qos) ∧
      made.effects.filterMap made.participant.deliveryOf = p.joinDeliveries qos r := by
  intro made r
  have hwatch := p.watchWriters_same (Reader.new r) now
  have hmatch := p.matchWriters_same (p.watchWriters (Reader.new r) now) now
  have hcfg := hmatch.1.trans hwatch.1
  let fresh := p.matchWriters (p.watchWriters (Reader.new r) now) now
  let joined := (p.lateJoin qos fresh).1
  have hjoined : joined.config = r := (p.lateJoin_config qos fresh).trans hcfg
  have heid : joined.eid = r.eid := congrArg eid hjoined
  have hself : made.participant.readers.get? fresh.eid = some joined := by
    rw [congrArg eid (hcfg.trans hjoined.symm)]
    exact get?_insert_self p.readers joined
  have hreaders : made.participant.view.readers = update p.view.readers r.eid (some r) := by
    funext eid
    show ((p.readers.insert joined).get? eid).map Reader.config = _
    rw [update_apply]
    split_ifs with h
    · rw [h, ← heid, get?_insert_self, map_some, hjoined]
    · rw [get?_insert_ne (heid ▸ h)]
      rfl
  constructor
  · unfold View.addReader
    rw [← hreaders]
    rfl
  · show ((announceReader _ _ none).2 ++ (p.lateJoin qos fresh).2).filterMap _ = _
    rw [filterMap_append, filterMap_announceReader, nil_append,
      lateJoin_deliveries p _ qos (hmatch.2.trans hwatch.2) hself (hjoined.trans hcfg.symm)]
    exact congrArg (p.joinDeliveries qos) hcfg

/-! ## Calls -/

/-- What a call that creates a subscriber asks for. -/
structure Request where
  topic : Str
  qos : QoS
  cfg : SubscriberConfig
  contentFilter : Option ContentFilterSpec

def request (p : ParticipantConfig) : Call → Option Request
  | .newSubscriber topic _ qos cfg _ => some ⟨topic, qos, cfg, none⟩
  | .newFilteredSubscriber topic expr params qos cfg _ =>
    (p.filterParse expr params).map fun e => ⟨topic, qos, cfg, some ⟨e, expr, params⟩⟩
  | _ => none

/-- A subscriber of the topic is not refused. -/
def AcceptsReader (p : Participant) (topic : Str) : Prop :=
  topic ≠ [] ∧ p.refuseSubscriber topic = none
  deriving Decidable

/-- A publisher of the topic is not refused. -/
def AcceptsWriter (p : Participant) (topic : Str) : Prop :=
  topic ≠ [] ∧ p.closed = false ∧ ∀ ac ∈ p.accessControl, ac.canWrite topic = true

/-- The call adds no reader. -/
def Refuses (p : Participant) (c : Call) : Prop :=
  ∀ req, request p.config c = some req → ¬ p.AcceptsReader req.topic

def Call.creationTime : Call → Int
  | .newSubscriber _ _ _ _ now => now
  | .newFilteredSubscriber _ _ _ _ _ now => now
  | _ => 0

def make (p : Participant) (req : Request) (typeName : Str) (now : Int) : Created :=
  p.newSubscriberLocked req.topic typeName req.qos req.cfg req.contentFilter now

/-- What a call may do to the participant, and its effects. -/
inductive Called (p : Participant) : Call → Participant → List Effect → Prop
  | refused {c : Call} (h : p.Refuses c) : Called p c p []
  | writerAdded {topic typeName : Str} {qos : QoS} {now : Int} (haccept : p.AcceptsWriter topic) :
      Called p (.newPublisher topic typeName qos now)
        (p.addWriter (p.writerConfig topic qos) typeName now).1
        (p.addWriter (p.writerConfig topic qos) typeName now).2
  | readerAdded {c : Call} (req : Request) (typeName : Str)
      (hreq : request p.config c = some req) (haccept : p.AcceptsReader req.topic) :
      Called p c (p.make req typeName c.creationTime).participant
        (p.make req typeName c.creationTime).effects
  | written {w : Writer} {payload rnd : Bytes} {now : Int}
      (hget : p.writers.get? w.eid = some w) :
      Called p (.write w.eid payload rnd now) (p.write w payload rnd now).participant
        (p.write w payload rnd now).effects
  | read (eid : EntityId) : Called p (.tryRead eid) (p.tryRead eid) []
  | writerClosed (eid : EntityId) : Called p (.closeWriter eid) (p.closeWriter eid) []
  | unsubscribed (eid : EntityId) : Called p (.unsubscribe eid) (p.unsubscribe eid) []
  | closed (eids : List EntityId) :
      Called p .close (eids.foldl closeWriter { p with closed := true }) []
  | heartbeat {w : Writer} (hget : p.writers.get? w.eid = some w) :
      Called p (.heartbeatTick w.eid) (p.sendHeartbeat w).1 (p.sendHeartbeat w).2
  | asserted {w : Writer} {now : Int} {f : Reader → Reader} {hf : ∀ r, (f r).eid = r.eid}
      {effs : List Effect} (hget : p.writers.get? w.eid = some w)
      (htouch : ∀ r, f r = r ∨ f r = r.touchLiveliness ⟨p.guidPrefix, w.eid⟩ now)
      (hsends : ∀ e ∈ effs, sends e = true) :
      Called p (.assertLiveliness w.eid now)
        { p.setWriter { w with livelinessSeq := w.livelinessSeq + 1 } with
          readers := p.readers.map f hf } effs
  | polled {r : Reader} {eid : EntityId} {order : List GUID} {now : Int}
      (hget : p.readers.get? eid = some r) (hcb : r.livelinessLostCb = true) :
      Called p (.checkLiveliness eid order now)
        { p with
          readers := p.readers.modify eid (fun r => (r.checkLeases now order).1)
            fun r => (Reader.sameMatch_checkLeases r now order).eid }
        ((r.checkLeases now order).2.map (Effect.livelinessLost eid))

theorem refuses_of_request (h : request p.config c = none) : p.Refuses c := by
  intro req hreq
  rw [h] at hreq
  cases hreq

theorem refuses_of_not_accepts {req : Request} (hreq : request p.config c = some req)
    (h : ¬ p.AcceptsReader req.topic) : p.Refuses c := by
  intro req' hreq'
  obtain rfl := Option.some.inj (hreq.symm.trans hreq')
  exact h

theorem call_cases (p : Participant) (c : Call) :
    ∃ q effs, p.call c = (q, effs) ∧ Called p c q effs := by
  refine ⟨(p.call c).1, (p.call c).2, rfl, ?_⟩
  cases c with
  | newPublisher topic typeName qos now =>
    have hnone : p.Refuses (.newPublisher topic typeName qos now) := refuses_of_request rfl
    unfold call afterCreation newPublisherWithType
    dsimp only
    split_ifs with htopic hclosed hac
    · exact .refused hnone
    · exact .refused hnone
    · exact .refused hnone
    · refine .writerAdded ⟨htopic, by simpa using hclosed, fun ac hmem => ?_⟩
      rw [mem_def.1 hmem] at hac
      simpa using hac
  | newSubscriber topic typeName qos cfg now =>
    unfold call afterCreation newSubscriberWithType
    dsimp only
    by_cases htopic : topic = []
    · rw [if_pos htopic]
      exact .refused (refuses_of_not_accepts rfl fun h => h.1 htopic)
    rw [if_neg htopic]
    cases hrefuse : p.refuseSubscriber topic with
    | some e => exact .refused (refuses_of_not_accepts rfl fun h => by cases hrefuse.symm.trans h.2)
    | none => exact .readerAdded ⟨topic, qos, cfg, none⟩ typeName rfl ⟨htopic, hrefuse⟩
  | newFilteredSubscriber topic expr params qos cfg now =>
    have hrequest : request p.config (.newFilteredSubscriber topic expr params qos cfg now) =
      (p.filterParse expr params).map fun e => ⟨topic, qos, cfg, some ⟨e, expr, params⟩⟩ := rfl
    unfold call afterCreation newFilteredSubscriber
    dsimp only
    cases hparse : p.filterParse expr params with
    | none =>
      rw [hparse] at hrequest
      split_ifs <;> exact .refused (refuses_of_request hrequest)
    | some e =>
      rw [hparse] at hrequest
      by_cases htopic : topic = []
      · rw [if_pos htopic]
        exact .refused (refuses_of_not_accepts hrequest fun h => h.1 htopic)
      rw [if_neg htopic]
      cases hrefuse : p.refuseSubscriber topic with
      | some err =>
        exact .refused (refuses_of_not_accepts hrequest fun h => by cases hrefuse.symm.trans h.2)
      | none => exact .readerAdded _ defaultTypeName hrequest ⟨htopic, hrefuse⟩
  | write eid payload rnd now =>
    unfold call writeBy
    dsimp only
    cases hget : p.writers.get? eid with
    | none => exact .refused (refuses_of_request rfl)
    | some w =>
      obtain rfl : w.eid = eid := (get?_eq_some.1 hget).2
      exact .written hget
  | tryRead eid => exact .read eid
  | closeWriter eid => exact .writerClosed eid
  | unsubscribe eid => exact .unsubscribed eid
  | close =>
    unfold call close
    split_ifs
    · exact .refused (refuses_of_request rfl)
    · exact .closed _
  | heartbeatTick eid =>
    unfold call heartbeatTick
    dsimp only
    cases hget : p.writers.get? eid with
    | none => exact .refused (refuses_of_request rfl)
    | some w =>
      obtain rfl : w.eid = eid := (get?_eq_some.1 hget).2
      dsimp only
      split_ifs
      · exact .refused (refuses_of_request rfl)
      · exact .heartbeat hget
  | assertLiveliness eid now =>
    unfold call assertLiveliness
    dsimp only
    cases hget : p.writers.get? eid with
    | none => exact .refused (refuses_of_request rfl)
    | some w =>
      obtain rfl : w.eid = eid := (get?_eq_some.1 hget).2
      dsimp only
      split_ifs
      · exact .refused (refuses_of_request rfl)
      · refine .asserted hget (fun r => ?_) fun e he => sends_sendTo he
        split_ifs
        · exact .inr rfl
        · exact .inl rfl
  | checkLiveliness eid order now =>
    unfold call checkLiveliness
    dsimp only
    cases hget : p.readers.get? eid with
    | none => exact .refused (refuses_of_request rfl)
    | some r =>
      dsimp only
      by_cases hcb : r.livelinessLostCb
      · rw [if_neg (by simp [hcb])]
        exact .polled hget hcb
      · rw [if_pos (by simpa using hcb)]
        exact .refused (refuses_of_request rfl)

/-- What a call does to the part of the state the policies look at, and what it delivers. -/
inductive Change (p : Participant) : Call → Participant → List Delivery → Prop
  | quiet {c : Call} {q : Participant} (hview : q.view = p.view) : Change p c q []
  | published {q : Participant} {ds : List Delivery} {w : Writer} {payload rnd : Bytes} {now : Int}
      (hget : p.writers.get? w.eid = some w) (hopen : w.closed = false)
      (hview : q.view =
        p.view.afterWrite p.config w.config payload now (p.publication w))
      (hds : ∀ d ∈ ds, ∃ r, p.view.readers r.eid = some r ∧ p.Admits w.config r ∧
        d = ⟨p.publication w, r.topic, r.partitions⟩) :
      Change p (.write w.eid payload rnd now) q ds
  | writerAdded {q : Participant} {topic typeName : Str} {qos : QoS} {now : Int}
      (haccept : p.AcceptsWriter topic)
      (hview : q.view = p.view.addWriter p.config (p.writerConfig topic qos)) :
      Change p (.newPublisher topic typeName qos now) q []
  | readerAdded {c : Call} {q : Participant} (req : Request)
      (hreq : request p.config c = some req) (haccept : p.AcceptsReader req.topic)
      (hview : q.view = p.view.addReader (p.readerConfig req.topic req.qos req.cfg req.contentFilter)
        (p.recalled req.topic req.qos)) :
      Change p c q
        (p.joinDeliveries req.qos (p.readerConfig req.topic req.qos req.cfg req.contentFilter))
  | writerClosed {q : Participant} {w : Writer} (hget : p.writers.get? w.eid = some w)
      (hopen : w.closed = false)
      (hview : q.view = p.view.closeWriter p.config w.config) :
      Change p (.closeWriter w.eid) q []
  | unsubscribed {q : Participant} {eid : EntityId}
      (hview : q.view = { p.view with readers := Function.update p.view.readers eid none }) :
      Change p (.unsubscribe eid) q []
  | closed (eids : List EntityId) :
      Change p .close (eids.foldl closeWriter { p with closed := true }) []

theorem deliveryOf_dispatch {q : Participant} (hcfg : q.config = p.config)
    (hwriters : q.view.writers = p.view.writers) (hreaders : q.view.readers = p.view.readers)
    (hw : p.writers.get? w.eid = some w) (hr : r ∈ p.readers.items) (origin : Origin)
    (sample : Sample) : q.deliveryOf (.dispatch r.eid ⟨p.guidPrefix, w.eid⟩ origin sample true) =
      some ⟨p.publication w, r.topic, r.partitions⟩ := by
  have hwq : q.view.writers w.eid = some (writerView w) := by
    rw [hwriters]
    exact congrArg (Option.map writerView) hw
  have hrq : q.view.readers r.eid = some r.config := by
    rw [hreaders]
    exact congrArg (Option.map Reader.config) (get?_eq_some.2 ⟨hr, rfl⟩)
  obtain ⟨w', hw', hwv⟩ := map_eq_some_iff.1 hwq
  obtain ⟨r', hr', hrv⟩ := map_eq_some_iff.1 hrq
  have hpub : q.publication w' = p.publication w :=
    publication_congr hcfg hwriters (congrArg Prod.fst hwv)
  have hprefix : p.guidPrefix = q.guidPrefix := congrArg ParticipantConfig.guidPrefix hcfg.symm
  simp only [deliveryOf, if_pos hprefix, hw', hr', hpub, hrv]

theorem write_effects (h : e ∈ (p.write w payload rnd now).effects) :
    sends e ∨ ∃ r ∈ p.readers.items, (∃ origin sample queued,
      e = .dispatch r.eid ⟨p.guidPrefix, w.eid⟩ origin sample queued) ∧
      p.Admits w.config r.config := by
  rcases write_cases p w payload rnd now with ⟨err, h'⟩ | ⟨err, h'⟩ | ⟨wire, msgs, -, -, h'⟩
  · rw [h'] at h
    cases h
  · rw [h'] at h
    cases h
  rw [h', publish_effects] at h
  rcases mem_append.1 h with h | h
  · obtain ⟨r, hr, heq, hadm⟩ := deliverLocally_effects h
    rw [Writer.keep_config] at heq hadm
    exact .inr ⟨r, hr, heq, hadm.topic, hadm.partitions, hadm.ownership⟩
  · refine .inl ?_
    rcases mem_append.1 h with h | h
    · exact sends_sendSample h
    · split_ifs at h
      · exact sends_sendHeartbeat h
      · cases h

theorem view_write (hget : p.writers.get? w.eid = some w) (payload rnd : Bytes) (now : Int) :
    (p.write w payload rnd now).participant.view = if (p.write w payload rnd now).error = none then
        p.view.afterWrite p.config w.config payload now (p.publication w)
      else p.view := by
  let w₁ := { w with seq := w.seq + 1 }
  let p₁ := (p.countWrite w.topic payload).setWriter w₁
  have hview₁ : p₁.view = p.view :=
    view_setWriter_same (p := p.countWrite w.topic payload) (w := w) hget rfl
  have hget₁ : p₁.writers.get? w₁.eid = some w₁ := (get?_setWriter _ _ _).trans (if_pos rfl)
  have hpub : p₁.publication w₁ = p.publication w :=
    publication_congr (p := p) (q := p₁) rfl (congrArg View.writers hview₁) rfl
  rcases write_cases p w payload rnd now with ⟨e, h⟩ | ⟨e, h⟩ | ⟨wire, msgs, -, -, h⟩
  · rw [h]
    rfl
  · rw [h]
    exact hview₁
  · rw [h, if_pos rfl]
    refine (view_publish hget₁ payload now msgs).trans ?_
    rw [hpub, hview₁]
    rfl

theorem view_write_writers (hget : p.writers.get? w.eid = some w) (payload rnd : Bytes) (now : Int) :
    (p.write w payload rnd now).participant.view.writers = p.view.writers := by
  rw [view_write hget]
  split_ifs <;> rfl

theorem view_write_readers (hget : p.writers.get? w.eid = some w) (payload rnd : Bytes) (now : Int) :
    (p.write w payload rnd now).participant.view.readers = p.view.readers := by
  rw [view_write hget]
  split_ifs <;> rfl

theorem serve_write (hget : p.writers.get? w.eid = some w) (payload rnd : Bytes) (now : Int) :
    p.serve (.write w.eid payload rnd now) =
      ((p.write w payload rnd now).participant, (p.write w payload rnd now).effects.filterMap
        (p.write w payload rnd now).participant.deliveryOf) := by
  unfold serve call writeBy
  dsimp only
  rw [hget]

theorem write_of_error (h : (p.write w payload rnd now).error ≠ none) :
    (p.write w payload rnd now).effects = [] := by
  rcases write_cases p w payload rnd now with ⟨e, h'⟩ | ⟨e, h'⟩ | ⟨wire, msgs, -, -, h'⟩
  · rw [h']
  · rw [h']
  · rw [h'] at h
    exact absurd rfl h

theorem open_of_write (h : (p.write w payload rnd now).error = none) : w.closed = false := by
  by_contra hclosed
  rw [write, if_pos (by simpa using hclosed)] at h
  cases h

theorem change_write (hget : p.writers.get? w.eid = some w) (payload rnd : Bytes) (now : Int) :
    Change p (.write w.eid payload rnd now) (p.write w payload rnd now).participant
      ((p.write w payload rnd now).effects.filterMap
        (p.write w payload rnd now).participant.deliveryOf) := by
  have hview := view_write hget payload rnd now
  by_cases herr : (p.write w payload rnd now).error = none
  swap
  · rw [if_neg herr] at hview
    rw [write_of_error herr]
    exact .quiet hview
  rw [if_pos herr] at hview
  refine .published hget (open_of_write herr) hview ?_
  intro d hd
  obtain ⟨e, he, hed⟩ := mem_filterMap.1 hd
  rcases write_effects he with hsend | ⟨r, hr, ⟨origin, sample, queued, rfl⟩, hadm⟩
  · rw [deliveryOf_of_sends hsend] at hed
    cases hed
  · have hr' : p.view.readers r.eid = some r.config :=
      congrArg (Option.map Reader.config) (get?_eq_some.2 ⟨hr, rfl⟩)
    cases queued with
    | false => cases hed
    | true =>
      rw [deliveryOf_dispatch (sameSetup_write p w payload rnd now).cfg
        (view_write_writers hget payload rnd now) (view_write_readers hget payload rnd now) hget
        hr] at hed
      exact ⟨r.config, hr', hadm, (Option.some.inj hed).symm⟩

theorem newPublisherWithType_of_accepts (h : p.AcceptsWriter topic) (typeName : Str) (qos : QoS)
    (now : Int) : p.newPublisherWithType topic typeName qos now =
      ⟨(p.addWriter (p.writerConfig topic qos) typeName now).1,
        (p.addWriter (p.writerConfig topic qos) typeName now).2,
        .ok (p.writerConfig topic qos).eid⟩ := by
  obtain ⟨htopic, hopen, hcan⟩ := h
  have hac : ¬ (p.accessControl.any fun ac => !ac.canWrite topic) = true := by
    cases hget : p.accessControl with
    | none => simp
    | some ac => simp [hcan ac hget]
  unfold newPublisherWithType
  rw [if_neg htopic, if_neg (by simp [hopen]), if_neg hac]

theorem serve_newPublisher (h : p.AcceptsWriter topic) (typeName : Str) (qos : QoS) (now : Int) :
    p.serve (.newPublisher topic typeName qos now) =
      ((p.addWriter (p.writerConfig topic qos) typeName now).1, []) := by
  unfold serve call afterCreation
  dsimp only
  rw [newPublisherWithType_of_accepts h]
  exact congrArg (Prod.mk _) (filterMap_announceWriter _ _ _)

theorem serve_newSubscriber (h : p.AcceptsReader topic) (typeName : Str) (qos : QoS)
    (cfg : SubscriberConfig) (now : Int) : p.serve (.newSubscriber topic typeName qos cfg now) =
      ((p.newSubscriberLocked topic typeName qos cfg none now).participant,
        p.joinDeliveries qos (p.readerConfig topic qos cfg none)) := by
  have hmade : p.newSubscriberWithType topic typeName qos cfg now =
      p.newSubscriberLocked topic typeName qos cfg none now := by
    unfold newSubscriberWithType
    rw [if_neg h.1, h.2]
  unfold serve call afterCreation
  dsimp only
  rw [hmade]
  exact congrArg (Prod.mk _) (newSubscriberLocked_spec p topic typeName qos cfg none now).2

variable (p)

theorem closeWriter_cases (eid : EntityId) :
    p.closeWriter eid = p ∨ ∃ w : Writer, w.eid = eid ∧ p.writers.get? w.eid = some w ∧
      w.closed = false ∧
      (p.closeWriter eid).view = p.view.closeWriter p.config w.config := by
  cases hget : p.writers.get? eid with
  | none =>
    refine .inl ?_
    unfold closeWriter
    rw [hget]
  | some w =>
    obtain rfl : w.eid = eid := (get?_eq_some.1 hget).2
    by_cases hclosed : w.closed
    · refine .inl ?_
      unfold closeWriter
      rw [hget]
      exact if_pos hclosed
    · have hopen : w.closed = false := by simpa using hclosed
      exact .inr ⟨w, rfl, hget, hopen, view_closeWriter hget hopen⟩

theorem change_closeWriter (eid : EntityId) :
    Change p (.closeWriter eid) (p.closeWriter eid) [] := by
  rcases p.closeWriter_cases eid with hsame | ⟨w, rfl, hget, hopen, hview⟩
  · rw [hsame]
    exact .quiet rfl
  · exact .writerClosed hget hopen hview

/-- Every call changes this part of the state in one of seven ways (`Change`), and the samples that
reach readers in it are accounted for: those of a write went past the checks of the dispatch, and a
new reader gets at most the kept sample. -/
theorem serve_change (c : Call) : Change p c (p.serve c).1 (p.serve c).2 := by
  obtain ⟨q, effs, hcall, hcalled⟩ := p.call_cases c
  rw [serve, hcall]
  cases hcalled with
  | refused => exact .quiet rfl
  | @writerAdded topic typeName qos now haccept =>
    have hds := congrArg Prod.snd (serve_newPublisher haccept typeName qos now)
    rw [serve, hcall] at hds
    rw [hds]
    exact .writerAdded haccept (view_addWriter p _ typeName now)
  | readerAdded req typeName hreq haccept =>
    obtain ⟨hview, hds⟩ := newSubscriberLocked_spec p req.topic typeName req.qos req.cfg
      req.contentFilter c.creationTime
    rw [make, hds]
    exact .readerAdded req hreq haccept hview
  | written hget => exact change_write hget _ _ _
  | read eid =>
    refine .quiet (view_mapReaders p _ fun r => ?_)
    split_ifs <;> rfl
  | writerClosed eid => exact p.change_closeWriter eid
  | unsubscribed eid =>
    refine .unsubscribed ?_
    have hreaders : (p.unsubscribe eid).view.readers = update p.view.readers eid none := by
      funext id
      show ((p.readers.erase eid).get? id).map _ = _
      rw [get?_erase, update_apply]
      split_ifs <;> rfl
    rw [← hreaders]
    rfl
  | closed eids => exact .closed eids
  | heartbeat hget =>
    rw [filterMap_of_sends fun e he => sends_sendHeartbeat he]
    exact .quiet (view_sendHeartbeat hget)
  | asserted hget htouch hsends =>
    rw [filterMap_of_sends hsends]
    refine .quiet ((view_mapReaders _ _ fun r => ?_).trans (view_setWriter_same hget rfl))
    rcases htouch r with h | h <;> rw [h]
    exact (sameMatch_touchLiveliness r _ _).cfg
  | polled =>
    rw [filterMap_map]
    refine Eq.subst (motive := Change p _ _) (filterMap_eq_nil_iff.2 fun _ _ => rfl).symm ?_
    refine .quiet (view_mapReaders p _ fun r => ?_)
    split_ifs
    · exact (sameMatch_checkLeases r _ _).cfg
    · rfl

theorem config_closeWriter (eid : EntityId) :
    (p.closeWriter eid).config = p.config := by
  unfold closeWriter unregisterOwnership
  cases p.writers.get? eid with
  | none => rfl
  | some w =>
    dsimp only
    split_ifs <;> rfl

theorem config_addWriter (w : WriterConfig) (typeName : Str)
    (now : Int) : (p.addWriter w typeName now).1.config = p.config := by
  unfold addWriter registerOwnership watchWriter
  split_ifs <;> rfl

theorem config_serve (c : Call) :
    (p.serve c).1.config = p.config := by
  obtain ⟨q, effs, hcall, hcalled⟩ := p.call_cases c
  rw [serve, hcall]
  cases hcalled with
  | writerAdded => exact p.config_addWriter _ _ _
  | written => exact (sameSetup_write p _ _ _ _).cfg
  | writerClosed eid => exact p.config_closeWriter eid
  | closed eids =>
    exact foldlRecOn _ _ (motive := fun q : Participant =>
      q.config = p.config) rfl
      fun q hq eid _ => (q.config_closeWriter eid).trans hq
  | heartbeat => exact (p.sameSetup_sendHeartbeat _).cfg
  | _ => rfl

variable {p}

theorem serve_request {req : Request} (hreq : request p.config c = some req)
    (haccept : p.AcceptsReader req.topic) : (p.serve c).2 =
      p.joinDeliveries req.qos (p.readerConfig req.topic req.qos req.cfg req.contentFilter) := by
  obtain ⟨q, effs, hcall, hcalled⟩ := p.call_cases c
  rw [serve, hcall]
  cases hcalled with
  | refused h => exact absurd haccept (h req hreq)
  | readerAdded req' typeName hreq' =>
    obtain rfl := Option.some.inj (hreq.symm.trans hreq')
    exact (newSubscriberLocked_spec p req.topic typeName req.qos req.cfg req.contentFilter _).2
  | _ => cases hreq

/-- What makes a property of the view an invariant of the participants with settings `cfg`, in runs
whose calls meet `C`. -/
structure Stable (cfg : ParticipantConfig) (C : Participant → Call → Prop) (J : View → Prop) :
    Prop where
  write : ∀ (p : Participant) (w : Writer) (payload : Bytes) (now : Int),
    p.config = cfg → p.writers.get? w.eid = some w → w.closed = false → J p.view →
      J (p.view.afterWrite cfg w.config payload now (p.publication w))
  addWriter : ∀ (p : Participant) (topic typeName : Str) (qos : QoS) (now : Int),
    p.config = cfg → C p (.newPublisher topic typeName qos now) →
      p.AcceptsWriter topic → J p.view → J (p.view.addWriter cfg (p.writerConfig topic qos))
  addReader : ∀ (p : Participant) (req : Request), p.config = cfg →
    p.AcceptsReader req.topic → J p.view →
      J (p.view.addReader (p.readerConfig req.topic req.qos req.cfg req.contentFilter)
        (p.recalled req.topic req.qos))
  closeWriter : ∀ (p : Participant) (w : Writer), p.config = cfg →
    p.writers.get? w.eid = some w → w.closed = false → J p.view →
      J (p.view.closeWriter cfg w.config)
  unsubscribe : ∀ (v : View) (eid : EntityId), J v →
    J { v with readers := Function.update v.readers eid none }
  close : ∀ v : View, J v → J { v with closed := true }

section

variable {cfg : ParticipantConfig} {C : Participant → Call → Prop} {J : View → Prop}

theorem Stable.mono (h : Stable cfg C J) {C' : Participant → Call → Prop}
    (hC : ∀ p c, C' p c → C p c) : Stable cfg C' J :=
  { h with
    addWriter := fun p topic typeName qos now hcfg hc =>
      h.addWriter p topic typeName qos now hcfg (hC _ _ hc) }

theorem Stable.serve (h : Stable cfg C J) (hC : C p c) (hp : p.config = cfg ∧ J p.view) :
    (p.serve c).1.config = cfg ∧ J (p.serve c).1.view := by
  obtain ⟨hcfg, hJ⟩ := hp
  refine ⟨(p.config_serve c).trans hcfg, ?_⟩
  have hclose : ∀ (q : Participant) (eid : EntityId), q.config = cfg → J q.view →
      J (q.closeWriter eid).view := by
    intro q eid hq hJq
    rcases q.closeWriter_cases eid with hsame | ⟨w, -, hget, hopen, hview⟩
    · rw [hsame]
      exact hJq
    · rw [hview, hq]
      exact h.closeWriter q w hq hget hopen hJq
  have hchange := p.serve_change c
  generalize (p.serve c).1 = q at hchange ⊢
  generalize (p.serve c).2 = ds at hchange
  cases hchange with
  | quiet hview =>
    rw [hview]
    exact hJ
  | published hget hopen hview =>
    rw [hview, hcfg]
    exact h.write p _ _ _ hcfg hget hopen hJ
  | writerAdded haccept hview =>
    rw [hview, hcfg]
    exact h.addWriter p _ _ _ _ hcfg hC haccept hJ
  | readerAdded req hreq haccept hview =>
    rw [hview]
    exact h.addReader p req hcfg haccept hJ
  | writerClosed hget hopen hview =>
    rw [hview, hcfg]
    exact h.closeWriter p _ hcfg hget hopen hJ
  | unsubscribed hview =>
    rw [hview]
    exact h.unsubscribe p.view _ hJ
  | closed eids =>
    have hstart : J (view { p with closed := true }) := h.close p.view hJ
    exact (foldlRecOn eids _ (b := { p with closed := true })
      (motive := fun q : Participant => q.config = cfg ∧ J q.view)
      ⟨hcfg, hstart⟩ fun q hq eid _ =>
        ⟨(q.config_closeWriter eid).trans hq.1, hclose q eid hq.1 hq.2⟩).2

theorem Stable.run_deliveries (h : Stable cfg C J) {P : Delivery → Prop}
    (hP : ∀ (q : Participant) (c : Call), q.config = cfg → J q.view → C q c →
      ∀ d ∈ (q.serve c).2, P d) (hp : p.config = cfg ∧ J p.view) {calls : List Call}
    (hC : Run.Along (fun _ q c => C q c) Participant.serve [] p calls) :
    ∀ d ∈ (Run.run Participant.serve p calls).2, P d :=
  Run.outputs_of_along (I := fun q : Participant => q.config = cfg ∧ J q.view)
    (fun _ _ _ hq hc => h.serve hc hq) (fun _ q c hq hc => hP q c hq.1 hq.2 hc) hp hC

end

end Participant

end GoDDS
