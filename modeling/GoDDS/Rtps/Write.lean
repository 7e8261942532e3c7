import GoDDS.Rtps.Receive

/-!
# Writing

`rtpsWriter.Write` and the periodic heartbeat of `participant.go`.
-/

namespace GoDDS

open ByteCodec Go Security Registry

/-- Why a write fails. The last one is the run-time error of a fragment size that is zero modulo
2^16. -/
inductive WriteError where
  | closed
  | payloadTooLarge (got : Nat) (limit : Int)
  | sealFailed
  | divideByZero
  deriving DecidableEq

structure Written where
  participant : Participant
  effects : List Effect
  error : Option WriteError

def Writer.keep (w : Writer) (msgs : List Bytes) : Writer :=
  if w.reliable then { w with history := w.history.store w.seq (msgs.headD []) } else w

open Writer

@[simp] theorem Writer.keep_config (w : Writer) (msgs : List Bytes) :
    (w.keep msgs).config = w.config := by
  unfold keep
  split_ifs <;> rfl

def Writer.announced (w : Writer) : Writer :=
  if w.reliable then (w.heartbeat.map Prod.fst).getD w else w

theorem Writer.announced_config (w : Writer) :
    w.announced.config = w.config := by
  unfold announced heartbeat
  split_ifs
  · cases w.history.firstLast <;> rfl
  · rfl

variable {p : Participant} {w : Writer}

namespace Participant

def setWriter (p : Participant) (w : Writer) : Participant := { p with writers := p.writers.insert w }

def sealPayload (p : ParticipantConfig) (rnd payload : Bytes) : Option Bytes :=
  match p.security with
  | none => some payload
  | some plugin => plugin.sealPayload rnd payload

def relayIDForPrefix (p : Participant) (guidPrefix : GuidPrefix) : Str :=
  ((p.spdp.peers.get? guidPrefix).map fun proxy => proxy.relayID).getD []

/-- One multicast reaches every matched address: none of them needs the relay or a filter. -/
def useMulticast (p : Participant) (w : Writer) (locs : List ReaderLocator) : Bool :=
  !locs.isEmpty && p.dataMcastSock && !w.tsnSock && locs.all fun lm =>
    !(p.relaySock && p.relayIDForPrefix lm.guidPrefix ≠ []) && lm.contentFilters.isEmpty

def sendSample (p : Participant) (w : Writer) (payload : Bytes) (msgs : List Bytes) : List Effect :=
  let locs := p.matchedReaderLocators w.topic w.qos.partition
  if p.useMulticast w locs then msgs.map (Effect.multicast (userMulticastAddr p.domain))
  else
    locs.flatMap fun lm =>
      if !lm.passes payload then []
      else
        match lm.loc.udpAddr with
        | none => []
        | some dst => msgs.map fun msg => .unicast dst lm.guidPrefix (.message msg)

def sendHeartbeat (p : Participant) (w : Writer) : Participant × List Effect :=
  match w.heartbeat with
  | none => (p, [])
  | some (w', hb) =>
    (p.setWriter w', sendTo (p.matchedReaderLocators w.topic w.qos.partition) (.heartbeat hb))

def heartbeatTick (p : Participant) (eid : EntityId) : Participant × List Effect :=
  match p.writers.get? eid with
  | none => (p, [])
  | some w => if !w.reliable || w.closed then (p, []) else p.sendHeartbeat w

/-- The name of a topic's file: slashes, backslashes and colons become underscores. -/
def persistName (topic : Str) : Str :=
  topic.map fun c => if c = 0x2F ∨ c = 0x5C ∨ c = 0x3A then 0x5F else c

def persistFlush (p : Participant) (topic : Str) (payload : Bytes) (origin : Publication) :
    Participant :=
  if p.persistDir = [] then p
  else { p with files := p.files.set (persistName topic) ⟨payload, origin⟩ }

def countWrite (p : Participant) (topic : Str) (payload : Bytes) : Participant :=
  { p with
    metrics := p.metrics.tick topic fun c =>
      { c with
        writes := c.writes + 1
        bytesWritten := c.bytesWritten + UInt64.ofNat payload.length } }

def localDispatch (p : Participant) (w : Writer) (payload : Bytes) (now : Int) : Dispatch :=
  { source := ⟨p.guidPrefix, w.eid⟩, topicFilter := w.topic, payload := payload, ts := now,
    seqNum := w.seq, sn := w.seq, writerPartitions := w.qos.partition, now := now }

def publisher (p : ParticipantConfig) (w : WriterConfig) : Publisher :=
  { guid := ⟨p.guidPrefix, w.eid⟩, topic := w.topic, partitions := w.qos.partition,
    exclusive := w.qos.ownership = .exclusive, strength := w.qos.ownershipStrength }

def openPublishers (p : Participant) : Finset Publisher :=
  ((p.writers.items.filter fun w => !w.closed).map fun w =>
    publisher p.config w.config).toFinset

def publication (p : Participant) (w : Writer) : Publication :=
  ⟨publisher p.config w.config, p.openPublishers⟩

def deliverLocally (p : Participant) (w : Writer) (payload : Bytes) (now : Int) :
    Participant × List Effect :=
  let sample : Sample :=
    { topic := w.topic, payload := payload, timestamp := now, sequenceNumber := 0,
      writerGUID := zeroGUID }
  let kept := { p with lastSample := p.lastSample.set w.topic ⟨sample, p.publication w⟩ }
  (kept.persistFlush w.topic payload (p.publication w)).dispatchToReaders
    (p.localDispatch w payload now)

/-- A write that gets that far: readers of the participant first, then the network. -/
def publish (p : Participant) (w : Writer) (payload : Bytes) (now : Int) (msgs : List Bytes) :
    Participant × List Effect :=
  let w := w.keep msgs
  let delivered := (p.setWriter w).deliverLocally w payload now
  let sent := delivered.1.sendSample w payload msgs
  if w.reliable then
    let announced := delivered.1.sendHeartbeat w
    (announced.1, delivered.2 ++ (sent ++ announced.2))
  else (delivered.1, delivered.2 ++ sent)

/-- The next number is given out before the payload is sealed. -/
def write (p : Participant) (w : Writer) (payload rnd : Bytes) (now : Int) : Written :=
  if w.closed then ⟨p, [], some .closed⟩
  else if 0 < w.qos.maxSampleSize ∧ w.qos.maxSampleSize < payload.length then
    ⟨p, [], some (.payloadTooLarge payload.length w.qos.maxSampleSize)⟩
  else
    let w := { w with seq := w.seq + 1 }
    let p := (p.countWrite w.topic payload).setWriter w
    match sealPayload p.config rnd payload with
    | none => ⟨p, [], some .sealFailed⟩
    | some wirePayload =>
      match w.messages p.guidPrefix (u64ToSN w.seq) now wirePayload with
      | none => ⟨p, [], some .divideByZero⟩
      | some msgs =>
        let published := p.publish w payload now msgs
        ⟨published.1, published.2, none⟩

/-! ## What a write does -/

theorem write_cases (p : Participant) (w : Writer) (payload rnd : Bytes) (now : Int) :
    let w₁ := { w with seq := w.seq + 1 }
    let p₁ := (p.countWrite w.topic payload).setWriter w₁
    (∃ e, p.write w payload rnd now = ⟨p, [], some e⟩) ∨
      (∃ e, p.write w payload rnd now = ⟨p₁, [], some e⟩) ∨
      ∃ wirePayload msgs, sealPayload p.config rnd payload = some wirePayload ∧
        w₁.messages p.guidPrefix (u64ToSN w₁.seq) now wirePayload = some msgs ∧
        p.write w payload rnd now =
          ⟨(p₁.publish w₁ payload now msgs).1, (p₁.publish w₁ payload now msgs).2, none⟩ := by
  intro w₁ p₁
  by_cases hclosed : w.closed
  · exact .inl ⟨_, by rw [write, if_pos hclosed]⟩
  by_cases hlarge : 0 < w.qos.maxSampleSize ∧ w.qos.maxSampleSize < payload.length
  · exact .inl ⟨_, by rw [write, if_neg hclosed, if_pos hlarge]⟩
  have hwrite : p.write w payload rnd now =
      match sealPayload p₁.config rnd payload with
      | none => ⟨p₁, [], some .sealFailed⟩
      | some wirePayload =>
        match w₁.messages p₁.guidPrefix (u64ToSN w₁.seq) now wirePayload with
        | none => ⟨p₁, [], some .divideByZero⟩
        | some msgs =>
          ⟨(p₁.publish w₁ payload now msgs).1, (p₁.publish w₁ payload now msgs).2, none⟩ := by
    rw [write, if_neg hclosed, if_neg hlarge]
  have hcfg : p₁.config = p.config := rfl
  rw [hcfg] at hwrite
  cases hseal : sealPayload p.config rnd payload with
  | none => exact .inr (.inl ⟨.sealFailed, by rw [hwrite, hseal]⟩)
  | some wirePayload =>
    cases hmsgs : w₁.messages p.guidPrefix (u64ToSN w₁.seq) now wirePayload with
    | none => exact .inr (.inl ⟨.divideByZero, by rw [hwrite, hseal]; simp only [hmsgs]⟩)
    | some msgs =>
      refine .inr (.inr ⟨wirePayload, msgs, rfl, hmsgs, ?_⟩)
      rw [hwrite, hseal]
      simp only [hmsgs]

theorem get?_setWriter (p : Participant) (w : Writer) (eid : EntityId) :
    (p.setWriter w).writers.get? eid = if eid = w.eid then some w else p.writers.get? eid :=
  get?_insert _ _ _

theorem writers_deliverLocally (p : Participant) (w : Writer) (payload : Bytes) (now : Int) :
    (p.deliverLocally w payload now).1.writers = p.writers := by
  unfold deliverLocally persistFlush
  dsimp only
  split_ifs <;> rfl

theorem sameSetup_deliverLocally (w : Writer) (payload : Bytes) (now : Int) :
    SameSetup p (p.deliverLocally w payload now).1 := by
  unfold deliverLocally persistFlush
  dsimp only
  split_ifs <;> exact ⟨rfl, rfl, rfl⟩

theorem get?_sendHeartbeat (hrel : w.reliable)
    (h : p.writers.get? w.eid = some w) (eid : EntityId) : (p.sendHeartbeat w).1.writers.get? eid =
      if eid = w.eid then some w.announced else p.writers.get? eid := by
  have heid : w.announced.eid = w.eid := congrArg WriterConfig.eid w.announced_config
  cases hhb : w.heartbeat with
  | none =>
    have hsame : w.announced = w := by
      rw [announced, if_pos hrel, hhb]
      rfl
    rw [hsame]
    unfold sendHeartbeat
    rw [hhb]
    split_ifs with he
    · rw [he, h]
    · rfl
  | some r =>
    have hsame : w.announced = r.1 := by
      rw [announced, if_pos hrel, hhb]
      rfl
    rw [hsame] at heid ⊢
    unfold sendHeartbeat
    rw [hhb]
    rw [get?_setWriter, heid]

theorem get?_publish (p : Participant) (w : Writer) (payload : Bytes) (now : Int)
    (msgs : List Bytes) (eid : EntityId) : (p.publish w payload now msgs).1.writers.get? eid =
      if eid = w.eid then some (w.keep msgs).announced else p.writers.get? eid := by
  have hcfg := w.keep_config msgs
  have hkept := get?_setWriter p (w.keep msgs)
  have hframe := writers_deliverLocally (p.setWriter (w.keep msgs)) (w.keep msgs) payload now
  rw [congrArg WriterConfig.eid hcfg] at hkept
  unfold publish
  dsimp only
  split_ifs with hrel heid heid
  · rw [get?_sendHeartbeat hrel, if_pos (heid.trans (congrArg WriterConfig.eid hcfg).symm)]
    rw [hframe, congrArg WriterConfig.eid hcfg, hkept, if_pos rfl]
  · rw [get?_sendHeartbeat hrel, if_neg fun h => heid (h.trans (congrArg WriterConfig.eid hcfg)),
      hframe, hkept, if_neg heid]
    rw [hframe, congrArg WriterConfig.eid hcfg, hkept, if_pos rfl]
  · rw [hframe, hkept, if_pos heid, announced, if_neg hrel]
  · rw [hframe, hkept, if_neg heid]

theorem sendSample_congr {q : Participant} {w' : Writer} (hsedp : q.sedp = p.sedp)
    (hspdp : q.spdp = p.spdp) (hcfg : q.config = p.config)
    (hw : w'.config = w.config) (payload : Bytes) (msgs : List Bytes) :
    q.sendSample w' payload msgs = p.sendSample w payload msgs := by
  unfold sendSample useMulticast relayIDForPrefix matchedReaderLocators
  rw [hsedp, hspdp, hcfg, hw]

theorem sendHeartbeat_effects (p : Participant) (w : Writer) :
    (p.sendHeartbeat w).2 = (w.heartbeat.map fun r =>
      sendTo (p.matchedReaderLocators w.topic w.qos.partition) (.heartbeat r.2)).getD [] := by
  unfold sendHeartbeat
  cases w.heartbeat <;> rfl

theorem publish_effects (p : Participant) (w : Writer) (payload : Bytes) (now : Int)
    (msgs : List Bytes) : (p.publish w payload now msgs).2 =
      ((p.setWriter (w.keep msgs)).deliverLocally (w.keep msgs) payload now).2 ++
        (p.sendSample w payload msgs ++
          if w.reliable then (p.sendHeartbeat (w.keep msgs)).2 else []) := by
  obtain ⟨hcfg, hsedp, hspdp⟩ :=
    sameSetup_deliverLocally (w.keep msgs) payload now
  have hsend := sendSample_congr hsedp hspdp hcfg (w.keep_config msgs) payload msgs
  have hrel : (w.keep msgs).reliable = w.reliable :=
    congrArg WriterConfig.reliable (w.keep_config msgs)
  have hhb : ((((p.setWriter (w.keep msgs)).deliverLocally (w.keep msgs) payload
      now).1).sendHeartbeat (w.keep msgs)).2 = (p.sendHeartbeat (w.keep msgs)).2 := by
    rw [sendHeartbeat_effects, sendHeartbeat_effects]
    unfold matchedReaderLocators
    rw [hsedp]
    rfl
  unfold publish
  dsimp only
  rw [hsend, hrel]
  split_ifs
  · rw [hhb]
    rfl
  · rw [List.append_nil]
    rfl

/-! ## Events -/

/-- What a participant goes through: writes, heartbeat ticks and packets. -/
inductive Event where
  | write (eid : EntityId) (payload rnd : Bytes) (now : Int)
  | heartbeatTick (eid : EntityId)
  | packet (pkt : Packet)

def writeBy (p : Participant) (eid : EntityId) (payload rnd : Bytes) (now : Int) :
    Participant × List Effect :=
  match p.writers.get? eid with
  | none => (p, [])
  | some w => ((p.write w payload rnd now).participant, (p.write w payload rnd now).effects)

def handle (p : Participant) : Event → Participant × List Effect
  | .write eid payload rnd now => p.writeBy eid payload rnd now
  | .heartbeatTick eid => p.heartbeatTick eid
  | .packet pkt => p.handleDataPacket pkt

inductive Op where
  | write (eid : EntityId) (payload rnd : Bytes) (now : Int)
  | heartbeatTick (eid : EntityId)
  | act (i : Input)

def perform (p : Participant) : Op → Participant × List Effect
  | .write eid payload rnd now => p.writeBy eid payload rnd now
  | .heartbeatTick eid => p.heartbeatTick eid
  | .act i => p.act i

def opsOf (cfg : ParticipantConfig) : Event → List Op
  | .write eid payload rnd now => [.write eid payload rnd now]
  | .heartbeatTick eid => [.heartbeatTick eid]
  | .packet pkt => (inputsOf cfg pkt).map .act

inductive WriterMove (cfg : ParticipantConfig) (w : Writer) (op : Op) (w' : Writer) : Prop
  | same (h : w' = w)
  | announced (h : w' = w.announced)
  | numbered (payload rnd : Bytes) (now : Int) (hop : op = .write w.eid payload rnd now)
      (h : w' = { w with seq := w.seq + 1 })
  | published (payload rnd : Bytes) (now : Int) (wirePayload : Bytes) (msgs : List Bytes)
      (hop : op = .write w.eid payload rnd now)
      (hmsgs : { w with seq := w.seq + 1 }.messages cfg.guidPrefix (u64ToSN (w.seq + 1)) now
        wirePayload = some msgs)
      (h : w' = ({ w with seq := w.seq + 1 }.keep msgs).announced)
  | acknowledged (g : GUID) (an : AckNack) (src : Option UDPAddr) (now : Int)
      (hop : op = .act ⟨.ackNack g an, src, now⟩) (hw : an.writerEntityId = w.eid)
      (hrel : w.reliable = true) (h : w' = w.advanceAcked (snToU64 an.base))

theorem get?_writeBy_of_ne {e eid : EntityId} (hne : eid ≠ e) (payload rnd : Bytes) (now : Int) :
    (p.writeBy e payload rnd now).1.writers.get? eid = p.writers.get? eid := by
  unfold writeBy
  cases hv : p.writers.get? e with
  | none => rfl
  | some v =>
    have hother : eid ≠ v.eid := fun h => hne (h.trans (get?_eq_some.1 hv).2)
    dsimp only
    rcases write_cases p v payload rnd now with ⟨err, h⟩ | ⟨err, h⟩ | ⟨wire, msgs, -, -, h⟩
    · rw [h]
    · rw [h]
      exact (get?_setWriter _ _ _).trans (if_neg hother)
    · rw [h]
      refine (get?_publish _ _ _ _ _ _).trans ((if_neg hother).trans ?_)
      exact (get?_setWriter _ _ _).trans (if_neg hother)

theorem writeBy_writer (hget : p.writers.get? w.eid = some w) (eid : EntityId) (payload rnd : Bytes)
    (now : Int) : ∃ w', (p.writeBy eid payload rnd now).1.writers.get? w.eid = some w' ∧
      WriterMove p.config w (.write eid payload rnd now) w' := by
  by_cases heid : w.eid = eid
  · subst heid
    unfold writeBy
    rw [hget]
    dsimp only
    rcases write_cases p w payload rnd now with ⟨e, h⟩ | ⟨e, h⟩ | ⟨wire, msgs, -, hmsgs, h⟩
    · rw [h]
      exact ⟨w, hget, .same rfl⟩
    · rw [h]
      refine ⟨_, (get?_setWriter _ _ _).trans (if_pos rfl), ?_⟩
      exact .numbered payload rnd now rfl rfl
    · rw [h]
      refine ⟨_, (get?_publish _ _ _ _ _ _).trans (if_pos rfl), ?_⟩
      exact .published payload rnd now wire msgs rfl hmsgs rfl
  · exact ⟨w, (get?_writeBy_of_ne heid payload rnd now).trans hget, .same rfl⟩

theorem heartbeatTick_writer (hget : p.writers.get? w.eid = some w) (eid : EntityId) :
    ∃ w', (p.heartbeatTick eid).1.writers.get? w.eid = some w' ∧ (w' = w ∨ w' = w.announced) := by
  unfold heartbeatTick
  cases hv : p.writers.get? eid with
  | none => exact ⟨w, hget, .inl rfl⟩
  | some v =>
    have hveid : v.eid = eid := (get?_eq_some.1 hv).2
    dsimp only
    split_ifs with hidle
    · exact ⟨w, hget, .inl rfl⟩
    · have hrel : v.reliable := by
        cases h : v.reliable <;> simp_all
      rw [get?_sendHeartbeat hrel (hveid ▸ hv)]
      by_cases heid : w.eid = v.eid
      · obtain rfl : v = w := Option.some.inj (hv.symm.trans (hveid ▸ heid ▸ hget))
        exact ⟨_, if_pos rfl, .inr rfl⟩
      · exact ⟨w, (if_neg heid).trans hget, .inl rfl⟩

theorem writers_handleOpened (g : GUID) (sn : UInt64) (payload : Bytes)
    (src : Option UDPAddr) (ts now : Int) :
    (p.handleOpened g sn payload src ts now).1.writers = p.writers := by
  unfold handleOpened checkReplay deliverOpened
  cases p.antiReplay with
  | _ =>
    dsimp only
    split_ifs <;> rfl

theorem act_writer (hget : p.writers.get? w.eid = some w) (i : Input) :
    ∃ w', (p.act i).1.writers.get? w.eid = some w' ∧
      WriterMove p.config w (.act i) w' := by
  cases hstuck : p.stuck with
  | true =>
    rw [act_of_stuck hstuck]
    exact ⟨w, hget, .same rfl⟩
  | false =>
    obtain ⟨a, src, now⟩ := i
    cases a with
    | data g sn payload ts =>
      rw [act_data hstuck, writers_handleOpened]
      exact ⟨w, hget, .same rfl⟩
    | heartbeat g hb =>
      rw [act_heartbeat hstuck]
      exact ⟨w, hget, .same rfl⟩
    | ackNack g an =>
      rw [act_ackNack hstuck]
      unfold handleAckNack
      cases hv : p.writers.get? an.writerEntityId with
      | none => exact ⟨w, hget, .same rfl⟩
      | some v =>
        dsimp only
        split_ifs with hrel
        · exact ⟨w, hget, .same rfl⟩
        · dsimp only
          by_cases heid : w.eid = an.writerEntityId
          · obtain rfl : v = w := Option.some.inj (hv.symm.trans (heid ▸ hget))
            rw [← heid, get?_modify_self hget]
            exact ⟨_, rfl, .acknowledged g an src now rfl heid.symm (by simpa using hrel) rfl⟩
          · rw [get?_modify, hget, Option.map_some, if_neg heid]
            exact ⟨w, rfl, .same rfl⟩

theorem perform_writer (hget : p.writers.get? w.eid = some w) (op : Op) :
    ∃ w', (p.perform op).1.writers.get? w.eid = some w' ∧
      WriterMove p.config w op w' := by
  cases op with
  | write eid payload rnd now => exact writeBy_writer hget eid payload rnd now
  | heartbeatTick eid =>
    obtain ⟨w', hw', rfl | rfl⟩ := heartbeatTick_writer hget eid
    · exact ⟨w', hw', .same rfl⟩
    · exact ⟨_, hw', .announced rfl⟩
  | act i => exact act_writer hget i

theorem perform_writer_none {eid : EntityId} (h : p.writers.get? eid = none) (op : Op) :
    (p.perform op).1.writers.get? eid = none := by
  cases op with
  | write e payload rnd now =>
    show (p.writeBy e payload rnd now).1.writers.get? eid = none
    by_cases heid : eid = e
    · rw [← heid, writeBy, h]
      exact h
    · exact (get?_writeBy_of_ne heid payload rnd now).trans h
  | heartbeatTick e =>
    show (p.heartbeatTick e).1.writers.get? eid = none
    unfold heartbeatTick
    cases hv : p.writers.get? e with
    | none => exact h
    | some v =>
      have hveid : v.eid = e := (get?_eq_some.1 hv).2
      have hne : eid ≠ v.eid := fun heid => by
        rw [heid, hveid, hv] at h
        cases h
      dsimp only
      split_ifs with hidle
      · exact h
      · have hrel : v.reliable := by
          cases hv : v.reliable <;> simp_all
        rw [get?_sendHeartbeat hrel (hveid ▸ hv), if_neg hne]
        exact h
  | act i =>
    show (p.act i).1.writers.get? eid = none
    cases hstuck : p.stuck with
    | true =>
      rw [act_of_stuck hstuck]
      exact h
    | false =>
      obtain ⟨a, src, now⟩ := i
      cases a with
      | data g sn payload ts =>
        rw [act_data hstuck, writers_handleOpened]
        exact h
      | heartbeat g hb =>
        rw [act_heartbeat hstuck]
        exact h
      | ackNack g an =>
        rw [act_ackNack hstuck]
        unfold handleAckNack
        split
        · exact h
        · split_ifs
          · exact h
          · rw [get?_modify, h]
            rfl

theorem sameSetup_sendHeartbeat (p : Participant) (w : Writer) :
    SameSetup p (p.sendHeartbeat w).1 := by
  unfold sendHeartbeat
  split <;> exact ⟨rfl, rfl, rfl⟩

theorem sameSetup_publish (w : Writer) (payload : Bytes) (now : Int)
    (msgs : List Bytes) : SameSetup p (p.publish w payload now msgs).1 := by
  have hkept : SameSetup p (p.setWriter (w.keep msgs)) := ⟨rfl, rfl, rfl⟩
  have hlocal := hkept.trans (sameSetup_deliverLocally (w.keep msgs) payload now)
  unfold publish
  dsimp only
  split_ifs
  · exact hlocal.trans (sameSetup_sendHeartbeat _ _)
  · exact hlocal

theorem sameSetup_write (p : Participant) (w : Writer) (payload rnd : Bytes) (now : Int) :
    SameSetup p (p.write w payload rnd now).participant := by
  rcases write_cases p w payload rnd now with ⟨e, h⟩ | ⟨e, h⟩ | ⟨wire, msgs, -, -, h⟩
  · rw [h]
    exact SameSetup.refl p
  · rw [h]
    exact ⟨rfl, rfl, rfl⟩
  · rw [h]
    refine SameSetup.trans ?_ (sameSetup_publish _ payload now msgs)
    exact ⟨rfl, rfl, rfl⟩

theorem sameSetup_perform (op : Op) : SameSetup p (p.perform op).1 := by
  cases op with
  | write eid payload rnd now =>
    show SameSetup p (p.writeBy eid payload rnd now).1
    unfold writeBy
    split
    · exact SameSetup.refl p
    · exact sameSetup_write p _ payload rnd now
  | heartbeatTick eid =>
    show SameSetup p (p.heartbeatTick eid).1
    unfold heartbeatTick
    split
    · exact SameSetup.refl p
    · split_ifs
      · exact SameSetup.refl p
      · exact sameSetup_sendHeartbeat p _
  | act i => exact sameSetup_act p i

theorem config_perform (p : Participant) (op : Op) :
    (p.perform op).1.config = p.config :=
  (sameSetup_perform op).cfg

theorem sameSetup_run_perform (p : Participant) (ops : List Op) :
    SameSetup p (Run.run perform p ops).1 :=
  Run.run_invariant (I := SameSetup p) (fun _ op hq => hq.trans (sameSetup_perform op)) (.refl p)
    ops

theorem config_run_perform (ops : List Op) :
    (Run.run perform p ops).1.config = p.config :=
  (sameSetup_run_perform p ops).cfg

theorem run_perform_act (is : List Input) : Run.run perform p (is.map .act) = Run.run act p is := by
  induction is generalizing p with
  | nil => rfl
  | cons i is ih =>
    rw [List.map_cons, Run.run_cons, Run.run_cons, ih]
    rfl

variable (p)

theorem handle_eq_run (ev : Event) :
    p.handle ev = Run.run perform p (opsOf p.config ev) := by
  cases ev with
  | packet pkt =>
    show p.handleDataPacket pkt = Run.run perform p ((inputsOf p.config pkt).map .act)
    rw [run_perform_act, handleDataPacket_eq_run]
  | _ => exact (Run.run_singleton _ _).symm

theorem run_handle_eq_run (evs : List Event) :
    Run.run handle p evs = Run.run perform p (evs.flatMap (opsOf p.config)) := by
  induction evs generalizing p with
  | nil => rfl
  | cons ev evs ih =>
    rw [Run.run_cons, List.flatMap_cons, Run.run_append, handle_eq_run, ih,
      config_run_perform]

end Participant

end GoDDS
