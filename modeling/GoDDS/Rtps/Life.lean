import GoDDS.Rtps.Discovery
import GoDDS.Rtps.LocalSpec
import GoDDS.Rtps.ReceiveSpec

/-!
# The life of a participant
-/

namespace GoDDS

open ByteCodec Go Security Run

namespace Participant

/-- Everything that can happen to a participant: the calls of its application, the packets it
receives and the ticks of its timers. -/
inductive LifeEvent where
  | call (c : Call)
  | node (ev : NodeEvent)

def live (p : Participant) : LifeEvent → Participant × List Effect
  | .call c => p.call c
  | .node ev => p.node ev

def discoverPeer (p : Participant) (proxy : ParticipantProxy) (now : Int) :
    Participant × List Effect :=
  let stored := p.storePeer proxy now
  let told := stored.1.onNewPeer (p.completeProxy proxy now)
  (told.1, stored.2 ++ told.2)

/-- What a life is a run of: calls, actions of user traffic, announcements and evictions. -/
inductive Turn where
  | call (c : Call)
  | act (i : Input)
  | peer (proxy : ParticipantProxy) (now : Int)
  | remoteWriter (info : EndpointInfo) (dataLocator : Locator) (now : Int)
  | remoteReader (info : EndpointInfo) (dataLocator : Locator)
  | announce
  | evict (now : Int)

def turn (p : Participant) : Turn → Participant × List Effect
  | .call c => p.call c
  | .act i => p.act i
  | .peer proxy now => p.discoverPeer proxy now
  | .remoteWriter info dataLocator now => (p.onRemoteWriter info dataLocator now, [])
  | .remoteReader info dataLocator => (p.onRemoteReader info dataLocator, [])
  | .announce => p.sendAnnouncement
  | .evict now => p.evictExpired now

def endpointTurn (cfg : ParticipantConfig) (remotePrefix : GuidPrefix) (payload : Bytes)
    (isWriter : Bool) (src : Option UDPAddr) (now : Int) : Option Turn :=
  (parseEndpointData remotePrefix payload isWriter src).bind fun a =>
    if a.info.topicName = [] then none
    else if !verifiesEndpoint cfg remotePrefix a then none
    else
      let info := { a.info with contentFilter := announcedFilter cfg a }
      some (if isWriter then .remoteWriter info a.dataLocator now
        else .remoteReader info a.dataLocator)

def sedpTurn (cfg : ParticipantConfig) (sender : GuidPrefix) (src : Option UDPAddr) (now : Int)
    (s : Submessage) : Option Turn :=
  (discoveryData s).bind fun (writer, payload) =>
    if writer = entityIdSEDPPubWriter then endpointTurn cfg sender payload true src now
    else if writer = entityIdSEDPSubWriter then endpointTurn cfg sender payload false src now
    else none

def spdpTurn (cfg : ParticipantConfig) (sender : GuidPrefix) (src : Option UDPAddr) (now : Int)
    (s : Submessage) : Option Turn :=
  (discoveryData s).bind fun (writer, payload) =>
    if writer ≠ entityIdSPDPWriter then none
    else if !verifiesDiscovery cfg sender payload then none
    else (parseParticipantData sender payload src).map fun proxy => .peer proxy now

def packetTurns (read : GuidPrefix → Option UDPAddr → Int → Submessage → Option Turn)
    (own : GuidPrefix) (pkt : Packet) : List Turn :=
  match submessagesOf own pkt.data with
  | none => []
  | some (sender, subs) => subs.flatMap fun s => (read sender pkt.src pkt.now s).toList

def streamTurns (cfg : ParticipantConfig) (pkt : Packet) : List Turn :=
  match submessagesOf cfg.guidPrefix pkt.data with
  | none => []
  | some (_, subs) =>
    match subs.findSome? routeOf with
    | none => []
    | some .spdp => packetTurns (spdpTurn cfg) cfg.guidPrefix pkt
    | some .sedp => packetTurns (sedpTurn cfg) cfg.guidPrefix pkt
    | some .data => (inputsOf cfg pkt).map .act

def turnsOf (cfg : ParticipantConfig) : LifeEvent → List Turn
  | .call c => [.call c]
  | .node (.spdp pkt) => packetTurns (spdpTurn cfg) cfg.guidPrefix pkt
  | .node (.sedp pkt) => packetTurns (sedpTurn cfg) cfg.guidPrefix pkt
  | .node (.stream pkt) => streamTurns cfg pkt
  | .node .announce => [.announce]
  | .node (.evict now) => [.evict now]
  | .node (.user (.write eid payload rnd now)) => [.call (.write eid payload rnd now)]
  | .node (.user (.heartbeatTick eid)) => [.call (.heartbeatTick eid)]
  | .node (.user (.packet pkt)) => (inputsOf cfg pkt).map .act

/-! ## The settings never change -/

theorem run_announce (w r : EntityId) (proxy : Option ParticipantProxy) (p : Participant)
    (infos : List EndpointInfo) : (run (fun q info => announce w r q info proxy) p infos).1 =
      { p with seqCounter := p.seqCounter + UInt32.ofNat infos.length } := by
  induction infos generalizing p with
  | nil => simp [run]
  | cons info infos ih =>
    have hseq : p.seqCounter + 1 + UInt32.ofNat infos.length =
        p.seqCounter + UInt32.ofNat (infos.length + 1) := by
      rw [UInt32.ofNat_add, UInt32.add_assoc, UInt32.add_comm 1]
      rfl
    rw [run_cons, ih]
    exact congrArg (fun n => { p with seqCounter := n }) hseq

variable (p : Participant)

theorem onNewPeer_eq (proxy : ParticipantProxy) :
    ∃ n, (p.onNewPeer proxy).1 = { p with seqCounter := n } := by
  show ∃ n, (run _ (run _ p p.sedp.localWriters.items).1 p.sedp.localReaders.items).1 = _
  unfold announceWriter announceReader
  rw [run_announce, run_announce]
  exact ⟨_, rfl⟩

theorem discoverPeer_eq (proxy : ParticipantProxy) (now : Int) :
    ∃ n, (p.discoverPeer proxy now).1 = { (p.storePeer proxy now).1 with seqCounter := n } :=
  onNewPeer_eq _ _

def expiredPrefixes (p : Participant) (now : Int) : List GuidPrefix :=
  (p.spdp.peers.items.filter (expired now)).map ParticipantProxy.key

def dropExpired (p : Participant) (now : Int) : Participant :=
  { p with
    spdp := { p.spdp with
      peers := p.spdp.peers.filter fun peer => !expired now peer
      peerEvictions := p.spdp.peerEvictions + UInt64.ofNat (p.expiredPrefixes now).length } }

theorem evictExpired_eq (now : Int) : (p.evictExpired now).1 =
      (p.expiredPrefixes now).foldl onPeerEvicted (p.dropExpired now) :=
  run_eq_foldl onPeerEvicted _ (p.dropExpired now) (p.expiredPrefixes now)

theorem evictExpired_induction {J : Participant → Prop} {p : Participant} {now : Int}
    (hdrop : J (p.dropExpired now)) (hevict : ∀ q gone, J q → J (q.onPeerEvicted gone)) :
    J (p.evictExpired now).1 := by
  rw [evictExpired_eq]
  exact List.foldlRecOn _ _ hdrop fun q hq gone _ => hevict q gone hq

theorem config_turn (t : Turn) :
    (p.turn t).1.config = p.config := by
  cases t with
  | call c => exact p.config_serve c
  | act i => exact p.config_act i
  | peer proxy now =>
    obtain ⟨n, hn⟩ := p.discoverPeer_eq proxy now
    show (p.discoverPeer proxy now).1.config = _
    rw [hn]
    rfl
  | evict now =>
    exact evictExpired_induction (J := fun q => q.config = p.config) rfl
      fun _ _ hq => hq
  | _ => rfl

theorem config_run_turn (ts : List Turn) :
    (run turn p ts).1.config = p.config :=
  run_invariant (I := fun q : Participant => q.config = p.config)
    (fun q t hq => (q.config_turn t).trans hq) rfl ts

/-! ## A life is a run of turns -/

theorem handleEndpointAnnounce_eq (remotePrefix : GuidPrefix) (payload : Bytes)
    (isWriter : Bool) (src : Option UDPAddr) (now : Int) :
    (p.handleEndpointAnnounce remotePrefix payload isWriter src now, ([] : List Effect)) =
      run turn p
        (endpointTurn p.config remotePrefix payload isWriter src now).toList := by
  unfold handleEndpointAnnounce endpointTurn
  cases parseEndpointData remotePrefix payload isWriter src with
  | none => rfl
  | some a =>
    dsimp only [Option.bind_some]
    split_ifs
    · rfl
    · rfl
    all_goals exact (run_singleton _ _).symm

theorem sedpSubmessage_eq (sender : GuidPrefix) (src : Option UDPAddr) (now : Int)
    (s : Submessage) : (sedpSubmessage sender src now p s, ([] : List Effect)) =
      run turn p (sedpTurn p.config sender src now s).toList := by
  unfold sedpSubmessage sedpTurn
  cases discoveryData s with
  | none => rfl
  | some d =>
    dsimp only [Option.bind_some]
    split_ifs
    · exact p.handleEndpointAnnounce_eq sender d.2 true src now
    · exact p.handleEndpointAnnounce_eq sender d.2 false src now
    · rfl

theorem spdpSubmessage_eq (sender : GuidPrefix) (src : Option UDPAddr) (now : Int)
    (s : Submessage) : spdpSubmessage sender src now p s =
      run turn p (spdpTurn p.config sender src now s).toList := by
  unfold spdpSubmessage spdpTurn
  cases discoveryData s with
  | none => rfl
  | some d =>
    dsimp only [Option.bind_some]
    split_ifs
    · rfl
    · rfl
    · cases parseParticipantData sender d.2 src with
      | none => rfl
      | some proxy => exact (run_singleton _ _).symm

theorem run_submessages_eq {read : GuidPrefix → Option UDPAddr → Int → Submessage → Option Turn}
    (handle : GuidPrefix → Option UDPAddr → Int → Participant → Submessage →
      Participant × List Effect) {p : Participant} (pkt : Packet)
    (h : ∀ q : Participant, q.config = p.config → ∀ sender src now s,
      handle sender src now q s = run turn q (read sender src now s).toList) :
    (match submessagesOf p.guidPrefix pkt.data with
      | none => (p, [])
      | some (sender, subs) => run (handle sender pkt.src pkt.now) p subs) =
      run turn p (packetTurns read p.guidPrefix pkt) := by
  unfold packetTurns
  cases submessagesOf p.guidPrefix pkt.data with
  | none => rfl
  | some r =>
    exact run_eq_run_flatMap (I := fun q => q.config = p.config) _
      (fun q t hq => (q.config_turn t).trans hq)
      (fun q s hq => h q hq r.1 pkt.src pkt.now s) rfl r.2

theorem sedpHandlePacket_eq (pkt : Packet) : p.sedpHandlePacket pkt =
      run turn p (packetTurns (sedpTurn p.config) p.guidPrefix pkt) := by
  refine run_submessages_eq (fun sender src now q s => (sedpSubmessage sender src now q s, [])) pkt ?_
  intro q hq sender src now s
  rw [q.sedpSubmessage_eq, hq]

theorem spdpHandlePacket_eq (pkt : Packet) : p.spdpHandlePacket pkt =
      run turn p (packetTurns (spdpTurn p.config) p.guidPrefix pkt) := by
  refine run_submessages_eq spdpSubmessage pkt ?_
  intro q hq sender src now s
  rw [q.spdpSubmessage_eq, hq]

theorem handleDataPacket_eq (pkt : Packet) :
    p.handleDataPacket pkt = run turn p ((inputsOf p.config pkt).map .act) := by
  have hact : ∀ (q : Participant) (i : Input), True → q.act i = run turn q [Turn.act i] :=
    fun _ _ _ => (run_singleton _ _).symm
  rw [handleDataPacket_eq_run, List.map_eq_flatMap]
  exact run_eq_run_flatMap (I := fun _ => True) _ (fun _ _ _ => trivial) hact trivial _

theorem live_eq_run (ev : LifeEvent) :
    p.live ev = run turn p (turnsOf p.config ev) := by
  cases ev with
  | call c => exact (run_singleton _ _).symm
  | node ev =>
    cases ev with
    | spdp pkt => exact p.spdpHandlePacket_eq pkt
    | sedp pkt => exact p.sedpHandlePacket_eq pkt
    | stream pkt =>
      show p.dispatchTCPPacket pkt = run turn p (streamTurns p.config pkt)
      unfold dispatchTCPPacket streamTurns
      cases submessagesOf p.guidPrefix pkt.data with
      | none => rfl
      | some r =>
        dsimp only
        cases r.2.findSome? routeOf with
        | none => rfl
        | some route =>
          cases route with
          | spdp => exact p.spdpHandlePacket_eq pkt
          | sedp => exact p.sedpHandlePacket_eq pkt
          | data => exact p.handleDataPacket_eq pkt
    | user ev =>
      cases ev with
      | packet pkt => exact p.handleDataPacket_eq pkt
      | _ => exact (run_singleton _ _).symm
    | _ => exact (run_singleton _ _).symm

/-- A life is the run of its turns. -/
theorem run_live_eq_run (evs : List LifeEvent) :
    run live p evs = run turn p (evs.flatMap (turnsOf p.config)) := by
  refine run_eq_run_flatMap (I := fun q => q.config = p.config) _
    (fun q t hq => (q.config_turn t).trans hq) (fun q ev hq => ?_) rfl evs
  rw [q.live_eq_run, hq]

/-! ## What the turns leave alone -/

structure SameTables (p q : Participant) : Prop where
  view : q.view = p.view
  sedp : q.sedp = p.sedp

theorem view_react (f : Reader → Reaction)
    (hf : ∀ r, Reader.SameSources r (f r).reader) : (p.react f hf).1.view = p.view :=
  view_mapReaders p (fun r => (hf r).eid) fun r => (hf r).cfg

theorem view_dispatchToReaders (d : Dispatch) : (p.dispatchToReaders d).1.view = p.view :=
  view_mapReaders p (fun r => (sameMatch_offer p d r).eid) fun r => (sameMatch_offer p d r).cfg

theorem view_checkReplay (g : GUID) (sn : UInt64) (ts : Int) :
    (p.checkReplay g sn ts).1.view = p.view := by
  unfold checkReplay
  cases p.antiReplay <;> rfl

theorem writerView_advanceAcked (w : Writer) (base : UInt64) :
    writerView (w.advanceAcked base) = writerView w := by
  unfold Writer.advanceAcked
  split_ifs <;> rfl

theorem view_handleAckNack (an : AckNack) (src : Option UDPAddr) :
    (p.handleAckNack an src).1.view = p.view := by
  unfold handleAckNack
  cases p.writers.get? an.writerEntityId with
  | none => rfl
  | some w =>
    dsimp only
    split_ifs
    · rfl
    · have hwriters : ∀ eid, ((p.writers.modify an.writerEntityId
          (fun w => w.advanceAcked (snToU64 an.base))
          fun w => congrArg WriterConfig.eid (w.advanceAcked_config _)).get? eid).map
            writerView = (p.writers.get? eid).map writerView := by
        intro eid
        rw [Registry.get?_modify, Option.map_map]
        congr 1
        funext v
        show writerView (if v.eid = _ then _ else v) = writerView v
        split_ifs
        · exact writerView_advanceAcked v _
        · rfl
      show View.mk _ _ (fun eid => _) _ _ _ _ = _
      simp only [hwriters]
      rfl

theorem view_act (i : Input) : (p.act i).1.view = p.view := by
  cases hstuck : p.stuck with
  | true => rw [act_of_stuck hstuck]
  | false =>
    obtain ⟨a, src, now⟩ := i
    cases a with
    | data g sn payload ts =>
      have hcheck := p.view_checkReplay g sn ts
      have htold : ((p.checkReplay g sn ts).1.notifyReliableReaders g sn src).1.view = p.view :=
        (view_react _ _ _).trans hcheck
      rw [act_data hstuck]
      rcases handleOpened_cases p g sn payload src ts now with ⟨-, h⟩ | ⟨-, -, h⟩ | ⟨-, -, h⟩
      · rw [h]
        exact hcheck
      · rw [h]
        exact htold
      · rw [h]
        exact (view_dispatchToReaders _ _).trans htold
    | heartbeat g hb =>
      rw [act_heartbeat hstuck]
      exact view_react _ _ _
    | ackNack g an =>
      rw [act_ackNack hstuck]
      exact p.view_handleAckNack an src

theorem sameTables_act (i : Input) : SameTables p (p.act i).1 :=
  ⟨p.view_act i, (sameSetup_act p i).sedp⟩

theorem sameTables_discoverPeer (proxy : ParticipantProxy) (now : Int) :
    SameTables p (p.discoverPeer proxy now).1 := by
  obtain ⟨n, hn⟩ := p.discoverPeer_eq proxy now
  rw [hn]
  exact ⟨rfl, rfl⟩

structure SameRemote (p q : Participant) : Prop where
  remoteWriters : q.sedp.remoteWriters = p.sedp.remoteWriters
  remoteReaders : q.sedp.remoteReaders = p.sedp.remoteReaders
  remoteReaderLocs : q.sedp.remoteReaderLocs = p.sedp.remoteReaderLocs

theorem SameRemote.of_sedp {p q : Participant} (h : q.sedp = p.sedp) : SameRemote p q := by
  constructor <;> rw [h]

theorem sedp_closeWriter (eid : EntityId) : (p.closeWriter eid).sedp = p.sedp := by
  unfold closeWriter unregisterOwnership
  cases p.writers.get? eid with
  | none => rfl
  | some w =>
    dsimp only
    split_ifs <;> rfl

theorem sameRemote_addWriter (w : WriterConfig) (typeName : Str) (now : Int) :
    SameRemote p (p.addWriter w typeName now).1 := by
  unfold addWriter registerOwnership watchWriter
  split_ifs <;> exact ⟨rfl, rfl, rfl⟩

def Call.creates : Call → Bool
  | .newPublisher _ _ _ _ => true
  | .newSubscriber _ _ _ _ _ => true
  | .newFilteredSubscriber _ _ _ _ _ _ => true
  | _ => false

theorem request_of_not_creates {cfg : ParticipantConfig} {c : Call} (hc : c.creates = false) :
    request cfg c = none := by
  cases c with
  | newSubscriber => cases hc
  | newFilteredSubscriber => cases hc
  | _ => rfl

theorem sedp_call {c : Call} (hc : c.creates = false) : (p.call c).1.sedp = p.sedp := by
  obtain ⟨q, effs, hcall, hcalled⟩ := p.call_cases c
  rw [hcall]
  cases hcalled with
  | writerAdded => cases hc
  | readerAdded req _ hreq => cases (request_of_not_creates hc).symm.trans hreq
  | written => exact (sameSetup_write p _ _ _ _).sedp
  | writerClosed eid => exact p.sedp_closeWriter eid
  | closed eids =>
    exact List.foldlRecOn _ _ (motive := fun q : Participant => q.sedp = p.sedp) rfl
      fun q hq eid _ => (q.sedp_closeWriter eid).trans hq
  | heartbeat => exact (p.sameSetup_sendHeartbeat _).sedp
  | _ => rfl

theorem sameRemote_call (c : Call) : SameRemote p (p.call c).1 := by
  cases hc : c.creates with
  | false => exact .of_sedp (p.sedp_call hc)
  | true =>
    obtain ⟨q, effs, hcall, hcalled⟩ := p.call_cases c
    rw [hcall]
    cases hcalled with
    | refused => exact .of_sedp rfl
    | writerAdded => exact p.sameRemote_addWriter _ _ _
    | readerAdded => exact ⟨rfl, rfl, rfl⟩
    | _ => cases hc

end Participant

end GoDDS
