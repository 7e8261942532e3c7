import GoDDS.Rtps.Participant

/-!
# Receiving packets

`handleDataPacket` of `participant.go` and the handlers behind it.

The source has no case for GAP or DATA_FRAG: both are dropped.
-/

namespace GoDDS

open ByteCodec Go Security Run

/-! ## Locators of matched readers -/

/-- The address of a participant with matched readers. With filters, one of them has to pass the
payload. -/
structure ReaderLocator where
  loc : Locator
  guidPrefix : GuidPrefix
  contentFilters : List ContentFilterSpec

def ReaderLocator.passes (rl : ReaderLocator) (payload : Bytes) : Bool :=
  rl.contentFilters.isEmpty || rl.contentFilters.any fun cf => cf.expr payload

/-- Add a matched reader: a new address, or its filter merged into a known one. A reader without a
filter makes the address unconditional. -/
def addReaderLocator (acc : List ReaderLocator) (loc : Locator) (ri : EndpointInfo) :
    List ReaderLocator :=
  if acc.any fun l => l.loc = loc then
    acc.map fun l =>
      if l.loc = loc then
        { l with
          contentFilters :=
            match ri.contentFilter with
            | none => []
            | some cf => if l.contentFilters.isEmpty then [] else l.contentFilters ++ [cf] }
      else l
  else acc ++ [⟨loc, ri.guid.guidPrefix, ri.contentFilter.toList⟩]

namespace Participant

/-- The addresses of the matching readers, each once. -/
def matchedReaderLocators (p : Participant) (topicName : Str) (partitions : List Str) :
    List ReaderLocator :=
  p.sedp.remoteReaders.items.foldl
    (fun acc ri =>
      if ri.topicName = topicName ∧ partitionsMatch partitions ri.partitions = true then
        match p.sedp.remoteReaderLocs ri.guid with
        | none => acc
        | some loc => if loc.kind = locatorKindInvalid then acc else addReaderLocator acc loc ri
      else acc) []

def sendTo (locs : List ReaderLocator) (out : Outgoing) : List Effect :=
  locs.filterMap fun lm => lm.loc.udpAddr.map fun dst => .unicast dst lm.guidPrefix out

/-- What an ACKNACK makes a writer send again. -/
def retransmissions (p : Participant) (w : Writer) (an : AckNack) : List Effect :=
  (List.range 32).flatMap fun bit =>
    if an.bitmap.toNat.testBit bit then
      match w.history.get (snToU64 an.base + UInt64.ofNat bit) with
      | none => []
      | some msg => sendTo (p.matchedReaderLocators w.topic w.qos.partition) (.message msg)
    else []

/-- The gap announced for what the history has lost, at most one bitmap window wide. -/
def evictedGap (w : Writer) (an : AckNack) : Option Gap :=
  match w.history.firstLast with
  | none => none
  | some (first, _) =>
    let ackBase := snToU64 an.base
    if ackBase < first then
      let gapEnd := if first - 1 > ackBase + 31 then ackBase + 31 else first - 1
      some
        { readerEntityId := an.readerEntityId
          writerEntityId := an.writerEntityId
          gapStart := u64ToSN ackBase
          gapEnd := u64ToSN gapEnd }
    else none

def zeroPrefix : GuidPrefix := FixedBytes.copy 12 []

def gapEffects (p : Participant) (w : Writer) (an : AckNack) (src : Option UDPAddr) : List Effect :=
  match evictedGap w an with
  | none => []
  | some g =>
    (src.map fun addr => Effect.unicast addr zeroPrefix (.gap g)).toList ++
      sendTo (p.matchedReaderLocators w.topic w.qos.partition) (.gap g)

def handleAckNack (p : Participant) (an : AckNack) (src : Option UDPAddr) :
    Participant × List Effect :=
  match p.writers.get? an.writerEntityId with
  | none => (p, [])
  | some w =>
    if !w.reliable then (p, [])
    else
      ({ p with
          writers := p.writers.modify an.writerEntityId (fun w => w.advanceAcked (snToU64 an.base))
            fun w => congrArg WriterConfig.eid (w.advanceAcked_config _) },
        p.retransmissions w an ++ p.gapEffects w an src)

end Participant

/-! ## Acknowledging -/

/-- A reader's new state, what it sends, and whether the handler gets stuck in the scan for missing
numbers. -/
structure Reaction where
  reader : Reader
  effects : List Effect
  stuck : Bool

variable {p : Participant} {r r' : Reader} {s : Submessage}

namespace Reader

def acknowledge (r : Reader) (g : GUID) (rt : RecvTracker) (lastSN : UInt64)
    (src : Option UDPAddr) : Reaction :=
  match rt.missing lastSN with
  | none => ⟨r.setTracker g rt, [], true⟩
  | some m =>
    match src with
    | none => ⟨r.setTracker g rt, [], false⟩
    | some addr =>
      if !m.needAck then ⟨r.setTracker g rt, [], false⟩
      else
        ⟨r.setTracker g rt.nextAckCount.1,
          [.unicast addr g.guidPrefix (.ackNack
            { readerEntityId := r.eid
              writerEntityId := g.entity
              base := u64ToSN m.base
              bitmap := m.bitmap
              count := rt.nextAckCount.2 })], false⟩

def notify (r : Reader) (own : GuidPrefix) (g : GUID) (sn : UInt64) (src : Option UDPAddr) :
    Reaction :=
  if !r.reliable || !r.acceptsSource own g then ⟨r, [], false⟩
  else r.acknowledge g ((r.trackerFor g).record sn).1 sn src

def onHeartbeat (r : Reader) (own : GuidPrefix) (g : GUID) (hb : Heartbeat)
    (src : Option UDPAddr) (now : Int) : Reaction :=
  if !r.acceptsSource own g then ⟨r, [], false⟩
  else
    let r := r.touchLiveliness g now
    if hb.liveliness || !r.reliable then ⟨r, [], false⟩
    else
      r.acknowledge g ((r.trackerFor g).initExpected (snToU64 hb.firstSN)) (snToU64 hb.lastSN) src

structure SameSources (r r' : Reader) : Prop where
  cfg : r'.config = r.config
  closed : r'.closed = r.closed
  sources : r'.sources = r.sources

theorem SameSources.refl (r : Reader) : SameSources r r := ⟨rfl, rfl, rfl⟩

theorem SameMatch.sameSources (h : SameMatch r r') : SameSources r r' :=
  ⟨h.cfg, h.closed, h.sources⟩

theorem SameSources.trans {r'' : Reader} (h : SameSources r r') (h' : SameSources r' r'') :
    SameSources r r'' :=
  ⟨h'.cfg.trans h.cfg, h'.closed.trans h.closed, h'.sources.trans h.sources⟩

theorem SameSources.eid (h : SameSources r r') : r'.eid = r.eid :=
  congrArg ReaderConfig.eid h.cfg

theorem SameSources.reliable (h : SameSources r r') : r'.reliable = r.reliable :=
  congrArg ReaderConfig.reliable h.cfg

theorem SameSources.acceptsSource (h : SameSources r r') (own : GuidPrefix) (g : GUID) :
    r'.acceptsSource own g = r.acceptsSource own g := by
  unfold Reader.acceptsSource
  rw [h.sources]

variable (r)

theorem sameSources_acknowledge (g : GUID) (rt : RecvTracker) (lastSN : UInt64)
    (src : Option UDPAddr) : SameSources r (r.acknowledge g rt lastSN src).reader := by
  unfold acknowledge
  split
  · exact ⟨rfl, rfl, rfl⟩
  · split
    · exact ⟨rfl, rfl, rfl⟩
    · split_ifs <;> exact ⟨rfl, rfl, rfl⟩

theorem sameSources_notify (own : GuidPrefix) (g : GUID) (sn : UInt64)
    (src : Option UDPAddr) : SameSources r (r.notify own g sn src).reader := by
  unfold notify
  split_ifs
  · exact SameSources.refl r
  · exact sameSources_acknowledge _ _ _ _ _

theorem sameSources_onHeartbeat (own : GuidPrefix) (g : GUID) (hb : Heartbeat)
    (src : Option UDPAddr) (now : Int) : SameSources r (r.onHeartbeat own g hb src now).reader := by
  have htouch := (sameMatch_touchLiveliness r g now).sameSources
  unfold onHeartbeat
  dsimp only
  split_ifs
  · exact SameSources.refl r
  · exact htouch
  · exact htouch.trans (sameSources_acknowledge _ _ _ _ _)

end Reader

namespace Participant

/-- Let every reader react. The handler is stuck if one of them is; here it has then served the
others. -/
def react (p : Participant) (f : Reader → Reaction)
    (hf : ∀ r, Reader.SameSources r (f r).reader) : Participant × List Effect :=
  ({ p with
      readers := p.readers.map (fun r => (f r).reader) fun r => (hf r).eid
      stuck := p.stuck || p.readers.items.any fun r => (f r).stuck },
    p.readers.items.flatMap fun r => (f r).effects)

def notifyReliableReaders (p : Participant) (g : GUID) (sn : UInt64) (src : Option UDPAddr) :
    Participant × List Effect :=
  p.react (fun r => r.notify p.guidPrefix g sn src) fun r => r.sameSources_notify _ _ _ _

def handleHeartbeat (p : Participant) (g : GUID) (hb : Heartbeat) (src : Option UDPAddr)
    (now : Int) : Participant × List Effect :=
  p.react (fun r => r.onHeartbeat p.guidPrefix g hb src now)
    fun r => r.sameSources_onHeartbeat _ _ _ _ _

/-! ## DATA -/

def openPayload (p : ParticipantConfig) (raw : Bytes) : Option Bytes :=
  match p.security with
  | none => some raw
  | some plugin => plugin.openPayload raw

/-- The writer, the sequence number and the opened payload of a DATA body. The flags on the wire
are not consulted. -/
def openData (p : ParticipantConfig) (body : Bytes) : Option (EntityId × UInt64 × Bytes) :=
  match parseDataSubmessage (flagEndianness ||| flagData) body with
  | none => none
  | some ds =>
    match ds.payload with
    | none => none
    | some wrapped =>
      match cdrUnwrapPayload wrapped with
      | none => none
      | some raw =>
        (openPayload p raw).map fun payload => (ds.writerEntityId, snToU64 ds.seqNum, payload)

def checkReplay (p : Participant) (g : GUID) (sn : UInt64) (ts : Int) :
    Participant × List Effect × Bool :=
  match p.antiReplay with
  | none => (p, [], true)
  | some guard =>
    ({ p with antiReplay := some (guard.check sn ts).1 },
      [.replayCheck g sn ts (guard.check sn ts).2], (guard.check sn ts).2 = .accepted)

/-- A sample from the wire: any topic, no partitions, the low word of its number. -/
def remoteDispatch (g : GUID) (sn : UInt64) (payload : Bytes) (ts now : Int) : Dispatch :=
  { source := g, topicFilter := [], payload := payload, ts := ts,
    seqNum := (u64ToSN sn).low.toUInt64, sn := sn, writerPartitions := [], now := now }

def deliverOpened (p : Participant) (g : GUID) (sn : UInt64) (payload : Bytes) (src : Option UDPAddr)
    (ts now : Int) : Participant × List Effect :=
  let notified := p.notifyReliableReaders g sn src
  if notified.1.stuck then notified
  else
    let dispatched := notified.1.dispatchToReaders (remoteDispatch g sn payload ts now)
    (dispatched.1, notified.2 ++ dispatched.2)

def handleOpened (p : Participant) (g : GUID) (sn : UInt64) (payload : Bytes)
    (src : Option UDPAddr) (ts now : Int) : Participant × List Effect :=
  let checked := p.checkReplay g sn ts
  if checked.2.2 then
    let delivered := checked.1.deliverOpened g sn payload src ts now
    (delivered.1, checked.2.1 ++ delivered.2)
  else (checked.1, checked.2.1)

def handleData (p : Participant) (sender : GuidPrefix) (src : Option UDPAddr) (ts now : Int)
    (body : Bytes) : Participant × List Effect :=
  match openData p.config body with
  | none => (p, [])
  | some (writer, sn, payload) => p.handleOpened ⟨sender, writer⟩ sn payload src ts now

structure Packet where
  data : Bytes
  src : Option UDPAddr
  now : Int

structure RecvState where
  participant : Participant
  pendingTS : Int

def handleSubmessage (sender : GuidPrefix) (src : Option UDPAddr) (now : Int) (c : RecvState)
    (s : Submessage) : RecvState × List Effect :=
  if c.participant.stuck then (c, [])
  else if s.id = submsgINFO_TS then
    match parseInfoTS now s.body with
    | none => (c, [])
    | some ts => ({ c with pendingTS := ts }, [])
  else if s.id = submsgDATA then
    let r := c.participant.handleData sender src c.pendingTS now s.body
    (⟨r.1, c.pendingTS⟩, r.2)
  else if s.id = submsgHEARTBEAT then
    match parseHeartbeat s.body with
    | none => (c, [])
    | some hb =>
      let r := c.participant.handleHeartbeat ⟨sender, hb.writerEntityId⟩
        { hb with liveliness := s.flags &&& hbFlagLiveliness ≠ 0 } src now
      (⟨r.1, c.pendingTS⟩, r.2)
  else if s.id = submsgACKNACK then
    match parseAckNack s.body with
    | none => (c, [])
    | some an =>
      let r := c.participant.handleAckNack an src
      (⟨r.1, c.pendingTS⟩, r.2)
  else (c, [])

/-- The submessages acted on: none if the header is malformed or names the participant itself. -/
def submessagesOf (own : GuidPrefix) (data : Bytes) : Option (GuidPrefix × List Submessage) :=
  match parseHeader data with
  | none => none
  | some hdr =>
    if hdr.guidPrefix = own then none
    else some (hdr.guidPrefix, (parseSubmessages (data.drop 20)).1)

/-- A run of the submessages over the participant and the timestamp of the last INFO_TS. -/
def handleDataPacket (p : Participant) (pkt : Packet) : Participant × List Effect :=
  match submessagesOf p.guidPrefix pkt.data with
  | none => (p, [])
  | some (sender, subs) =>
    let r := Run.run (handleSubmessage sender pkt.src pkt.now) ⟨p, zeroTime⟩ subs
    (r.1.participant, r.2)

/-- A run of packets. -/
def receive (p : Participant) (pkts : List Packet) : Participant × List Effect :=
  Run.run handleDataPacket p pkts

/-! ## Packets as runs of actions

What a packet makes a participant do is decided by its bytes and the participant's settings. So a run
of packets is a run of the actions decoded from them (`receive_eq_run`). -/

/-- What a submessage asks for, once decoded and opened, with the endpoint that sent it. -/
inductive Action where
  | data (g : GUID) (sn : UInt64) (payload : Bytes) (ts : Int)
  | heartbeat (g : GUID) (hb : Heartbeat)
  | ackNack (g : GUID) (an : AckNack)
  deriving DecidableEq

structure Input where
  action : Action
  src : Option UDPAddr
  now : Int
  deriving DecidableEq

def act (p : Participant) (i : Input) : Participant × List Effect :=
  if p.stuck then (p, [])
  else
    match i.action with
    | .data g sn payload ts => p.handleOpened g sn payload i.src ts i.now
    | .heartbeat g hb => p.handleHeartbeat g hb i.src i.now
    | .ackNack _ an => p.handleAckNack an i.src

theorem act_of_stuck (h : p.stuck) (i : Input) : p.act i = (p, []) := by
  rw [act, if_pos h]

theorem act_data (h : p.stuck = false) (g : GUID) (sn : UInt64) (payload : Bytes) (ts : Int)
    (src : Option UDPAddr) (now : Int) :
    p.act ⟨.data g sn payload ts, src, now⟩ = p.handleOpened g sn payload src ts now := by
  simp [act, h]

theorem act_heartbeat (h : p.stuck = false) (g : GUID) (hb : Heartbeat) (src : Option UDPAddr)
    (now : Int) : p.act ⟨.heartbeat g hb, src, now⟩ = p.handleHeartbeat g hb src now := by
  simp [act, h]

theorem act_ackNack (h : p.stuck = false) (g : GUID) (an : AckNack) (src : Option UDPAddr)
    (now : Int) : p.act ⟨.ackNack g an, src, now⟩ = p.handleAckNack an src := by
  simp [act, h]

def actionOf (cfg : ParticipantConfig) (sender : GuidPrefix) (ts : Int) (s : Submessage) :
    Option Action :=
  if s.id = submsgDATA then
    (openData cfg s.body).map fun (writer, sn, payload) => .data ⟨sender, writer⟩ sn payload ts
  else if s.id = submsgHEARTBEAT then
    (parseHeartbeat s.body).map fun hb =>
      .heartbeat ⟨sender, hb.writerEntityId⟩
        { hb with liveliness := s.flags &&& hbFlagLiveliness ≠ 0 }
  else if s.id = submsgACKNACK then
    (parseAckNack s.body).map fun an => .ackNack ⟨sender, an.readerEntityId⟩ an
  else none

theorem actionOf_data (h : s.id = submsgDATA) (cfg : ParticipantConfig) (sender : GuidPrefix)
    (ts : Int) : actionOf cfg sender ts s = (openData cfg s.body).map fun (writer, sn, payload) =>
      .data ⟨sender, writer⟩ sn payload ts :=
  if_pos h

theorem actionOf_heartbeat (h : s.id = submsgHEARTBEAT) (cfg : ParticipantConfig)
    (sender : GuidPrefix) (ts : Int) :
    actionOf cfg sender ts s = (parseHeartbeat s.body).map fun hb =>
      .heartbeat ⟨sender, hb.writerEntityId⟩
        { hb with liveliness := s.flags &&& hbFlagLiveliness ≠ 0 } := by
  rw [actionOf, h, if_neg (by decide), if_pos rfl]

theorem actionOf_ackNack (h : s.id = submsgACKNACK) (cfg : ParticipantConfig) (sender : GuidPrefix)
    (ts : Int) : actionOf cfg sender ts s =
      (parseAckNack s.body).map fun an => .ackNack ⟨sender, an.readerEntityId⟩ an := by
  rw [actionOf, h, if_neg (by decide), if_neg (by decide), if_pos rfl]

theorem actionOf_ignored (h : s.id = submsgGAP ∨ s.id = submsgDATAFRAG) (cfg : ParticipantConfig)
    (sender : GuidPrefix) (ts : Int) : actionOf cfg sender ts s = none := by
  rcases h with h | h
  all_goals rw [actionOf, h, if_neg (by decide), if_neg (by decide), if_neg (by decide)]

def inputsOfSubs (cfg : ParticipantConfig) (sender : GuidPrefix) (src : Option UDPAddr)
    (now : Int) : Int → List Submessage → List Input
  | _, [] => []
  | ts, s :: subs =>
    if s.id = submsgINFO_TS then
      inputsOfSubs cfg sender src now ((parseInfoTS now s.body).getD ts) subs
    else
      ((actionOf cfg sender ts s).map fun a => Input.mk a src now).toList ++
        inputsOfSubs cfg sender src now ts subs

def inputsOf (cfg : ParticipantConfig) (pkt : Packet) : List Input :=
  match submessagesOf cfg.guidPrefix pkt.data with
  | none => []
  | some (sender, subs) => inputsOfSubs cfg sender pkt.src pkt.now zeroTime subs

theorem sameSetup_deliverOpened (g : GUID) (sn : UInt64) (payload : Bytes)
    (src : Option UDPAddr) (ts now : Int) :
    SameSetup p (p.deliverOpened g sn payload src ts now).1 := by
  unfold deliverOpened
  dsimp only
  split_ifs <;> exact ⟨rfl, rfl, rfl⟩

theorem sameSetup_handleOpened (g : GUID) (sn : UInt64) (payload : Bytes)
    (src : Option UDPAddr) (ts now : Int) :
    SameSetup p (p.handleOpened g sn payload src ts now).1 := by
  have hchk : SameSetup p (p.checkReplay g sn ts).1 := by
    unfold checkReplay
    cases p.antiReplay <;> exact ⟨rfl, rfl, rfl⟩
  unfold handleOpened
  dsimp only
  split_ifs
  · exact hchk.trans (sameSetup_deliverOpened g sn payload src ts now)
  · exact hchk

theorem sameSetup_handleAckNack (an : AckNack) (src : Option UDPAddr) :
    SameSetup p (p.handleAckNack an src).1 := by
  unfold handleAckNack
  split
  · exact SameSetup.refl p
  · split_ifs <;> exact ⟨rfl, rfl, rfl⟩

theorem sameSetup_act (p : Participant) (i : Input) : SameSetup p (p.act i).1 := by
  unfold act
  split_ifs
  · exact SameSetup.refl p
  · cases i.action with
    | data g sn payload ts => exact sameSetup_handleOpened g sn payload _ ts _
    | heartbeat g hb => exact ⟨rfl, rfl, rfl⟩
    | ackNack g an => exact sameSetup_handleAckNack an _

theorem config_act (p : Participant) (i : Input) :
    (p.act i).1.config = p.config :=
  (sameSetup_act p i).cfg

theorem handleSubmessage_eq_act {sender : GuidPrefix} {src : Option UDPAddr} {now : Int}
    {c : RecvState} (hid : s.id ≠ submsgINFO_TS) : handleSubmessage sender src now c s =
      match actionOf c.participant.config sender c.pendingTS s with
      | none => (c, [])
      | some a => (⟨(c.participant.act ⟨a, src, now⟩).1, c.pendingTS⟩,
          (c.participant.act ⟨a, src, now⟩).2) := by
  by_cases hstuck : c.participant.stuck
  · rw [handleSubmessage, if_pos hstuck]
    cases actionOf c.participant.config sender c.pendingTS s with
    | none => rfl
    | some a => simp only [act_of_stuck hstuck]
  · rw [handleSubmessage, if_neg hstuck, if_neg hid]
    unfold actionOf act
    split_ifs with hdata hhb han
    · unfold handleData
      cases openData c.participant.config s.body with
      | none => rfl
      | some d => simp only [Option.map_some]
    · cases parseHeartbeat s.body with
      | none => rfl
      | some hb => simp only [Option.map_some]
    · cases parseAckNack s.body with
      | none => rfl
      | some an => simp only [Option.map_some]
    · rfl

theorem run_act_of_stuck (h : p.stuck) (is : List Input) : run act p is = (p, []) := by
  induction is with
  | nil => rfl
  | cons i is ih => simp only [run_cons, act_of_stuck h, ih, List.append_nil]

theorem run_handleSubmessage_of_stuck {sender : GuidPrefix} {src : Option UDPAddr} {now : Int}
    {c : RecvState} (h : c.participant.stuck) (subs : List Submessage) :
    run (handleSubmessage sender src now) c subs = (c, []) := by
  induction subs with
  | nil => rfl
  | cons s subs ih =>
    have hstep : handleSubmessage sender src now c s = (c, []) := by
      rw [handleSubmessage, if_pos h]
    simp only [run_cons, hstep, ih, List.append_nil]

theorem run_handleSubmessage (sender : GuidPrefix) (src : Option UDPAddr) (now : Int)
    (subs : List Submessage) (p : Participant) (ts : Int) :
    ((run (handleSubmessage sender src now) ⟨p, ts⟩ subs).1.participant,
        (run (handleSubmessage sender src now) ⟨p, ts⟩ subs).2) =
      run act p (inputsOfSubs p.config sender src now ts subs) := by
  by_cases hstuck : p.stuck
  · rw [run_handleSubmessage_of_stuck hstuck, run_act_of_stuck hstuck]
  induction subs generalizing p ts with
  | nil => rfl
  | cons s subs ih =>
    rw [inputsOfSubs, run_cons]
    by_cases hid : s.id = submsgINFO_TS
    · have hstep : handleSubmessage sender src now ⟨p, ts⟩ s =
          (⟨p, (parseInfoTS now s.body).getD ts⟩, []) := by
        rw [handleSubmessage, if_neg hstuck, if_pos hid]
        cases parseInfoTS now s.body <;> rfl
      rw [if_pos hid, hstep]
      exact ih p _ hstuck
    · rw [if_neg hid, handleSubmessage_eq_act hid]
      cases actionOf p.config sender ts s with
      | none => exact ih p ts hstuck
      | some a =>
        simp only [Option.map_some, Option.toList_some, List.singleton_append, run_cons]
        rw [← config_act p ⟨a, src, now⟩]
        by_cases hstuck' : (p.act ⟨a, src, now⟩).1.stuck
        · rw [run_handleSubmessage_of_stuck hstuck', run_act_of_stuck hstuck']
        · have h := ih (p.act ⟨a, src, now⟩).1 ts hstuck'
          rw [← h]

theorem handleDataPacket_eq_run (p : Participant) (pkt : Packet) :
    p.handleDataPacket pkt = run act p (inputsOf p.config pkt) := by
  unfold handleDataPacket inputsOf
  cases submessagesOf p.guidPrefix pkt.data with
  | none => rfl
  | some hdr => exact run_handleSubmessage _ _ _ _ _ _

theorem sameSetup_run_act (is : List Input) : SameSetup p (run act p is).1 :=
  run_invariant (I := SameSetup p) (fun q i hq => hq.trans (sameSetup_act q i)) (.refl p) is

variable (p)

theorem config_run_act (is : List Input) :
    (run act p is).1.config = p.config :=
  (sameSetup_run_act is).cfg

theorem receive_eq_run (pkts : List Packet) :
    p.receive pkts = run act p (pkts.flatMap (inputsOf p.config)) := by
  unfold receive
  induction pkts generalizing p with
  | nil => rfl
  | cons pkt pkts ih =>
    rw [run_cons, List.flatMap_cons, run_append, handleDataPacket_eq_run, ih,
      config_run_act]

end Participant

end GoDDS
